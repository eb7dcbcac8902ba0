import LeYiDai.Lib.MethodTable

/-! CFSwzzling: the helper that exchanges two methods of a class. When the class has no method of
    its own under the first selector, the second method is added there and the first is put under
    the second selector; otherwise the two exchange where they stand, which may be in a
    superclass. `Exchanged` is what both paths come to for the messages a class answers. -/

namespace LeYiDai

open MethodTable

variable {κ ς ι : Type*} [DecidableEq κ] [DecidableEq ς]

/-- `swizzling_exchangeMethod`: `none` when the class understands one of the selectors not at
    all. -/
def swizzling_exchangeMethod (H : Hierarchy κ) (T : MethodTable κ ς ι) (clazz : κ)
    (originalSelector exchangeSelector : ς) : Option (MethodTable κ ς ι) :=
  match getInstanceMethod H T clazz originalSelector,
      getInstanceMethod H T clazz exchangeSelector with
  | some originalMethod, some exchangeMethod =>
    match T.addMethod clazz originalSelector (T.getImplementation exchangeMethod) with
    | some T' =>
      some (T'.replaceMethod clazz exchangeSelector (T'.getImplementation originalMethod))
    | none => some (T.exchangeImplementations originalMethod exchangeMethod)
  | _, _ => none

/-- What exchanging `a` and `b` in `c` does to the table: `c` answers each with what it answered to
    the other, a class that is not below `c` answers all but `b` as before, the entries of classes
    that are not above `c` stay, and no class loses a method. -/
structure Exchanged (H : Hierarchy κ) (c : κ) (a b : ς) (T T' : MethodTable κ ς ι) : Prop where
  lookup_self : ∀ s, T'.lookup H c s = T.lookup H c (Equiv.swap a b s)
  lookup_other : ∀ d s, c ∉ H.ancestry d → s ≠ b → T'.lookup H d s = T.lookup H d s
  entry_other : ∀ d s, d ∉ H.ancestry c → T' d s = T d s
  keeps : ∀ d s, (T d s).isSome → (T' d s).isSome

variable {H : Hierarchy κ} {T T' : MethodTable κ ς ι} {c d : κ} {a b s : ς}

/-- The class has no method `a` of its own: the two are put under each other's selector in it. -/
theorem exchanged_of_add {ia ib : ι} (hnone : T c a = none) (ha : T.lookup H c a = some ia)
    (hb : T.lookup H c b = some ib) :
    Exchanged H c a b T ((T.replaceMethod c a (some ib)).replaceMethod c b (some ia)) where
  lookup_self s := by
    by_cases hsb : s = b
    · subst hsb
      rw [Equiv.swap_apply_right, ha]
      exact lookup_own (by simp [replaceMethod])
    · by_cases hsa : s = a
      · subst hsa
        rw [Equiv.swap_apply_left, hb]
        exact lookup_own (by simp [replaceMethod, hsb])
      · rw [Equiv.swap_apply_of_ne_of_ne hsa hsb]
        exact lookup_congr fun d _ => by simp [replaceMethod, hsa, hsb]
  lookup_other d s hd _ := by
    refine lookup_congr fun e he => ?_
    have hec : e ≠ c := fun h => hd (h ▸ he)
    simp [replaceMethod, hec]
  entry_other d s hd := by
    have hdc : d ≠ c := fun h => hd (h ▸ H.self_mem_ancestry c)
    simp [replaceMethod, hdc]
  keeps d s h := by
    simp only [replaceMethod]
    split_ifs <;> simp [h]

/-- The class has a method `a` of its own, and `b` is found at `e`: they exchange in place. -/
theorem exchanged_of_exchange {ia ib : ι} {e : κ} (ha : T c a = some ia)
    (hb : getInstanceMethod H T c b = some ⟨e, b⟩) (he : e ∈ H.ancestry c) (hib : T e b = some ib)
    (hlookup : T.lookup H c b = some ib) :
    Exchanged H c a b T (T.exchangeImplementations ⟨c, a⟩ ⟨e, b⟩) := by
  have hentry := exchangeImplementations_entry ha hib
  have hself : T.lookup H c a = some ia := lookup_own ha
  constructor
  case lookup_self =>
    intro s
    by_cases hsb : s = b
    · subst hsb
      rw [Equiv.swap_apply_right, hself, ← lookup_replaceMethod (i := ia) hb]
      refine lookup_congr fun d _ => ?_
      by_cases hd : d = c ∧ s = a
      · -- the two selectors are one, and so are their implementations
        obtain ⟨rfl, rfl⟩ := hd
        have hii : ib = ia := Option.some.inj (hlookup.symm.trans hself)
        simp [hentry, replaceMethod, hii, ha]
      · simp [hentry, replaceMethod, hd]
    · by_cases hsa : s = a
      · subst hsa
        rw [Equiv.swap_apply_left, hlookup]
        exact lookup_own (by simp [hentry, hsb])
      · rw [Equiv.swap_apply_of_ne_of_ne hsa hsb]
        exact lookup_congr fun d _ => by simp [hentry, hsa, hsb]
  case lookup_other =>
    intro d s hd hsb
    refine lookup_congr fun f hf => ?_
    have hfc : f ≠ c := fun h => hd (h ▸ hf)
    simp [hentry, hfc, hsb]
  case entry_other =>
    intro d s hd
    have hdc : d ≠ c := fun h => hd (h ▸ H.self_mem_ancestry c)
    have hde : d ≠ e := fun h => hd (h ▸ he)
    simp [hentry, hdc, hde]
  case keeps =>
    intro d s h
    rw [hentry]
    split_ifs <;> simp [h]

/-- The two paths of the helper, for two selectors that the class understands. -/
theorem swizzling_exchangeMethod_cases (ha : (T.lookup H c a).isSome)
    (hb : (T.lookup H c b).isSome) :
    ∃ ia ib, T.lookup H c a = some ia ∧ T.lookup H c b = some ib ∧
      (T c a = none ∧ swizzling_exchangeMethod H T c a b =
          some ((T.replaceMethod c a (some ib)).replaceMethod c b (some ia)) ∨
        T c a = some ia ∧ ∃ e, getInstanceMethod H T c b = some ⟨e, b⟩ ∧ T e b = some ib ∧
          swizzling_exchangeMethod H T c a b =
            some (T.exchangeImplementations ⟨c, a⟩ ⟨e, b⟩)) := by
  obtain ⟨ia, hia⟩ := Option.isSome_iff_exists.mp ha
  obtain ⟨ib, hib⟩ := Option.isSome_iff_exists.mp hb
  obtain ⟨d, hd, -, hda⟩ := getInstanceMethod_of_lookup ha
  obtain ⟨e, he, -, heb⟩ := getInstanceMethod_of_lookup hb
  rw [hia] at hda
  rw [hib] at heb
  refine ⟨ia, ib, hia, hib, ?_⟩
  unfold swizzling_exchangeMethod
  rw [hd, he]
  cases hown : T c a with
  | none =>
    have hdc : d ≠ c := fun h => by
      rw [h, hown] at hda
      cases hda
    refine .inl ⟨rfl, ?_⟩
    simp [addMethod, hown, getImplementation, replaceMethod, heb, hda, hdc]
  | some i =>
    have hdc : d = c := by
      rw [getInstanceMethod_own hown] at hd
      simpa using hd.symm
    subst hdc
    exact .inr ⟨hown.symm.trans hda, e, rfl, heb, by simp [addMethod, hown]⟩

/-- Exchanging two selectors that the class understands. -/
theorem swizzling_exchangeMethod_spec (ha : (T.lookup H c a).isSome)
    (hb : (T.lookup H c b).isSome) :
    ∃ T', swizzling_exchangeMethod H T c a b = some T' ∧ Exchanged H c a b T T' := by
  obtain ⟨ia, ib, hia, hib, ⟨hnone, hT⟩ | ⟨hown, e, he, heb, hT⟩⟩ :=
    swizzling_exchangeMethod_cases ha hb
  · exact ⟨_, hT, exchanged_of_add hnone hia hib⟩
  · have hmem := (lookup_of_getInstanceMethod he).2.1
    exact ⟨_, hT, exchanged_of_exchange hown he hmem heb hib⟩

/-! ### A list of exchanges -/

/-- The exchanges of a list, one after the other. -/
def exchangeMethods (H : Hierarchy κ) :
    MethodTable κ ς ι → List (κ × ς × ς) → Option (MethodTable κ ς ι)
  | T, [] => some T
  | T, (c, a, b) :: rest =>
    (swizzling_exchangeMethod H T c a b).bind fun T' => exchangeMethods H T' rest

/-- The selector whose former implementation `c` answers `s` with after the exchanges. -/
def formerSelector (c : κ) (s : ς) : List (κ × ς × ς) → ς
  | [] => s
  | (d, a, b) :: rest =>
    let s' := formerSelector c s rest
    if d = c then Equiv.swap a b s' else s'

/-- The exchanges in other classes pass `c` and `s` by: no such class is `c` or above it, and the
    selector exchanged away there is never the one asked for. -/
def PassedBy (H : Hierarchy κ) (c : κ) (s : ς) : List (κ × ς × ς) → Prop
  | [] => True
  | (d, _, b) :: rest =>
    PassedBy H c s rest ∧ (d ≠ c → d ∉ H.ancestry c ∧ formerSelector c s rest ≠ b)

instance decidablePassedBy (c : κ) (s : ς) :
    ∀ exchanges : List (κ × ς × ς), Decidable (PassedBy H c s exchanges)
  | [] => .isTrue trivial
  | (_, _, _) :: rest =>
    have := decidablePassedBy c s rest
    inferInstanceAs (Decidable (_ ∧ _))

omit [DecidableEq κ] in
theorem Exchanged.lookup_isSome (h : Exchanged H c a b T T') (hs : (T.lookup H d s).isSome) :
    (T'.lookup H d s).isSome := by
  obtain ⟨e, he, hes⟩ := lookup_isSome_iff.mp hs
  exact lookup_isSome_iff.mpr ⟨e, he, h.keeps e s hes⟩

/-- When each class understands the selectors exchanged in it, all exchanges are made. -/
theorem exchangeMethods_isSome : ∀ (exchanges : List (κ × ς × ς)) (T : MethodTable κ ς ι),
    (∀ x ∈ exchanges, (T.lookup H x.1 x.2.1).isSome ∧ (T.lookup H x.1 x.2.2).isSome) →
    (exchangeMethods H T exchanges).isSome
  | [], _, _ => rfl
  | (c, a, b) :: rest, T, h => by
      obtain ⟨ha, hb⟩ := h (c, a, b) (by simp)
      obtain ⟨T', hT', hex⟩ := swizzling_exchangeMethod_spec ha hb
      rw [exchangeMethods, hT', Option.bind_some]
      refine exchangeMethods_isSome rest T' fun x hx => ?_
      have hx' := h x (by simp [hx])
      exact ⟨hex.lookup_isSome hx'.1, hex.lookup_isSome hx'.2⟩

/-- What a class answers after a list of exchanges that pass it by elsewhere. -/
theorem exchangeMethods_lookup : ∀ (exchanges : List (κ × ς × ς)) (T : MethodTable κ ς ι),
    (∀ x ∈ exchanges, (T.lookup H x.1 x.2.1).isSome ∧ (T.lookup H x.1 x.2.2).isSome) →
    exchangeMethods H T exchanges = some T' → PassedBy H c s exchanges →
    T'.lookup H c s = T.lookup H c (formerSelector c s exchanges)
  | [], T, _, hT', _ => by
      cases hT'
      rfl
  | (d, a, b) :: rest, T, h, hT', hpass => by
      obtain ⟨ha, hb⟩ := h (d, a, b) (by simp)
      obtain ⟨T₁, hT₁, hex⟩ := swizzling_exchangeMethod_spec ha hb
      rw [exchangeMethods, hT₁, Option.bind_some] at hT'
      have hrest := exchangeMethods_lookup rest T₁
        (fun x hx => ⟨hex.lookup_isSome (h x (by simp [hx])).1,
          hex.lookup_isSome (h x (by simp [hx])).2⟩) hT' hpass.1
      rw [hrest, formerSelector]
      by_cases hd : d = c
      · subst hd
        rw [if_pos rfl, hex.lookup_self]
      · rw [if_neg hd, hex.lookup_other c _ (hpass.2 hd).1 (hpass.2 hd).2]

end LeYiDai
