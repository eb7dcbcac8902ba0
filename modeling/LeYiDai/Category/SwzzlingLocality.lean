import LeYiDai.Category.NSArrayBeyond

/-! How far the exchange helper reaches. `class_addMethod` is tried so that a class without a
    method of its own gets one and its superclass keeps what it has. The guard is on the first
    selector only: where the class has `a` of its own and inherits `b`, the exchange in place puts
    the class's `a` into the superclass, and whatever else inherits `b` from there answers it with
    that. -/

namespace LeYiDai

open MethodTable

variable {κ ς ι : Type*} [DecidableEq κ] [DecidableEq ς]

/-- `c` answers each of the two selectors with what it answered to the other. -/
def AnswersExchanged (H : Hierarchy κ) (c : κ) (a b : ς) (T T' : MethodTable κ ς ι) : Prop :=
  T'.lookup H c a = T.lookup H c b ∧ T'.lookup H c b = T.lookup H c a

/-- A class that is neither `c` nor below it answers every selector as before. -/
def LocalTo (H : Hierarchy κ) (c : κ) (T T' : MethodTable κ ς ι) : Prop :=
  ∀ d, c ∉ H.ancestry d → ∀ s, T'.lookup H d s = T.lookup H d s

/-- A class with a method `a` of its own has one for `b` too, or answers both alike. -/
def StaysInClass (H : Hierarchy κ) (T : MethodTable κ ς ι) (c : κ) (a b : ς) : Prop :=
  (T c a).isSome → (T c b).isSome ∨ T.lookup H c a = T.lookup H c b

variable {H : Hierarchy κ} {T T' : MethodTable κ ς ι} {c d e : κ} {a b s : ς} {ia ib : ι}

omit [DecidableEq κ] in
theorem Exchanged.answers (h : Exchanged H c a b T T') : AnswersExchanged H c a b T T' := by
  refine ⟨?_, ?_⟩
  · rw [h.lookup_self, Equiv.swap_apply_left]
  · rw [h.lookup_self, Equiv.swap_apply_right]

/-- Both methods put into the class itself: no class elsewhere has it on its way up. -/
theorem localTo_add :
    LocalTo H c T ((T.replaceMethod c a (some ib)).replaceMethod c b (some ia)) := by
  intro d hd s
  refine lookup_congr fun f hf => ?_
  have hfc : f ≠ c := fun h => hd (h ▸ hf)
  simp [replaceMethod, hfc]

/-- Seen from elsewhere, the exchange replaces the method found for `b`. -/
theorem lookup_exchange_elsewhere (ha : T c a = some ia) (hb : T e b = some ib)
    (hd : c ∉ H.ancestry d) (s : ς) :
    (T.exchangeImplementations ⟨c, a⟩ ⟨e, b⟩).lookup H d s =
      (T.replaceMethod e b (some ia)).lookup H d s := by
  refine lookup_congr fun f hf => ?_
  have hfc : f ≠ c := fun h => hd (h ▸ hf)
  simp [exchangeImplementations_entry ha hb, replaceMethod, hfc]

/-- The messages elsewhere that the exchange changes: those that find the method it found for `b`,
    unless that had the implementation of `a` already. -/
theorem exchange_elsewhere_iff (ha : T c a = some ia) (hb : T e b = some ib)
    (hd : c ∉ H.ancestry d) :
    (T.exchangeImplementations ⟨c, a⟩ ⟨e, b⟩).lookup H d s = T.lookup H d s ↔
      (getInstanceMethod H T d s = some ⟨e, b⟩ → ia = ib) := by
  rw [lookup_exchange_elsewhere ha hb hd]
  by_cases hfind : getInstanceMethod H T d s = some ⟨e, b⟩
  · obtain ⟨rfl, -, -, hlookup⟩ := lookup_of_getInstanceMethod hfind
    rw [lookup_replaceMethod hfind, hlookup, hb]
    simp [hfind]
  · rw [lookup_replaceMethod_of_ne (by simp [hb]) hfind]
    simp [hfind]

/-- The exchange in place is local when the method found for `b` is the class's own, or is the one
    it is exchanged with. -/
theorem localTo_exchange_iff (ha : T c a = some ia)
    (hfind : getInstanceMethod H T c b = some ⟨e, b⟩) (hb : T e b = some ib) :
    LocalTo H c T (T.exchangeImplementations ⟨c, a⟩ ⟨e, b⟩) ↔ e = c ∨ ia = ib := by
  constructor
  · intro hlocal
    by_contra hne
    obtain ⟨hec, hii⟩ := not_or.mp hne
    -- the superclass that has `b` answers it with `a`
    have hmem := (lookup_of_getInstanceMethod hfind).2.1
    have habove := H.not_mem_ancestry hmem hec
    exact hii ((exchange_elsewhere_iff ha hb habove).mp (hlocal e habove b)
      (getInstanceMethod_own hb))
  · intro hor d hd s
    refine (exchange_elsewhere_iff ha hb hd).mpr fun hfound => ?_
    rcases hor with rfl | hii
    · exact absurd (lookup_of_getInstanceMethod hfound).2.1 hd
    · exact hii

/-- The helper exchanges what the class answers, and touches nothing elsewhere exactly when the
    class has no `a` of its own, has a `b` of its own, or answers both alike. -/
theorem swizzling_local_iff (H : Hierarchy κ) (T : MethodTable κ ς ι) (c : κ) (a b : ς)
    (ha : (T.lookup H c a).isSome) (hb : (T.lookup H c b).isSome) :
    ∃ T', swizzling_exchangeMethod H T c a b = some T' ∧
      (AnswersExchanged H c a b T T' ∧ LocalTo H c T T' ↔ StaysInClass H T c a b) := by
  obtain ⟨T', hT', hex⟩ := swizzling_exchangeMethod_spec ha hb
  refine ⟨T', hT', ?_⟩
  rw [and_iff_right hex.answers, StaysInClass]
  obtain ⟨ia, ib, hia, hib, ⟨hnone, hT⟩ | ⟨hown, e, hfind, heb, hT⟩⟩ :=
    swizzling_exchangeMethod_cases ha hb
  · cases hT'.symm.trans hT
    exact iff_of_true localTo_add fun h => by simp [hnone] at h
  · cases hT'.symm.trans hT
    rw [localTo_exchange_iff hown hfind heb, hia, hib, Option.some_inj]
    have howner : e = c ↔ (T c b).isSome := by
      constructor
      · rintro rfl
        simp [heb]
      · intro h
        obtain ⟨i, hi⟩ := Option.isSome_iff_exists.mp h
        rw [getInstanceMethod_own hi] at hfind
        cases hfind
        rfl
    rw [howner]
    exact ⟨fun h _ => h, fun h => h (by simp [hown])⟩

/-- NSArray has both an accessor and its check. -/
theorem nsArray_exchange_local :
    ∃ T', swizzling_exchangeMethod arrayHierarchy (foundationMethods fun _ _ => true) .nsArray
        (.accessor .objectAtIndex) (.beyond .arrayI_objectAtIndex) = some T' ∧
      AnswersExchanged arrayHierarchy .nsArray (.accessor .objectAtIndex)
        (.beyond .arrayI_objectAtIndex) (foundationMethods fun _ _ => true) T' ∧
      LocalTo arrayHierarchy .nsArray (foundationMethods fun _ _ => true) T' := by
  obtain ⟨T', hT', hiff⟩ := swizzling_local_iff arrayHierarchy (foundationMethods fun _ _ => true)
    .nsArray (.accessor .objectAtIndex) (.beyond .arrayI_objectAtIndex)
    (by simp [foundationMethods_lookup]) (by simp [foundationMethods_lookup])
  exact ⟨T', hT', hiff.mpr fun _ => .inl rfl⟩

/-- `__NSArrayI` has the accessor and inherits the check: NSArray, which is above it, answers the
    check with the accessor. -/
theorem nsArrayI_exchange_spreads :
    ∃ T', swizzling_exchangeMethod arrayHierarchy (foundationMethods fun _ _ => true) .nsArrayI
        (.accessor .objectAtIndex) (.beyond .arrayI_objectAtIndex) = some T' ∧
      (MethodTable.lookup arrayHierarchy (foundationMethods fun _ _ => true) .nsArrayI
        (.accessor .objectAtIndex)).isSome ∧
      (MethodTable.lookup arrayHierarchy (foundationMethods fun _ _ => true) .nsArrayI
        (.beyond .arrayI_objectAtIndex)).isSome ∧
      .nsArrayI ∉ arrayHierarchy.ancestry .nsArray ∧
      MethodTable.lookup arrayHierarchy (foundationMethods fun _ _ => true) .nsArray
        (.beyond .arrayI_objectAtIndex) = some (.beyond .arrayI_objectAtIndex) ∧
      T'.lookup arrayHierarchy .nsArray (.beyond .arrayI_objectAtIndex) = some .foundation ∧
      ¬LocalTo arrayHierarchy .nsArrayI (foundationMethods fun _ _ => true) T' := by
  obtain ⟨T', hT'⟩ := Option.isSome_iff_exists.mp (show (swizzling_exchangeMethod arrayHierarchy
    (foundationMethods fun _ _ => true) .nsArrayI (.accessor .objectAtIndex)
    (.beyond .arrayI_objectAtIndex)).isSome by decide)
  have hbefore := foundationMethods_lookup (fun _ _ => true) .nsArray
    (.beyond .arrayI_objectAtIndex)
  have hafter : T'.lookup arrayHierarchy .nsArray (.beyond .arrayI_objectAtIndex) =
      some .foundation := by
    have hmap : (swizzling_exchangeMethod arrayHierarchy (foundationMethods fun _ _ => true)
        .nsArrayI (.accessor .objectAtIndex) (.beyond .arrayI_objectAtIndex)).map
          (fun T => T.lookup arrayHierarchy .nsArray (.beyond .arrayI_objectAtIndex)) =
        some (some .foundation) := by decide
    rw [hT'] at hmap
    exact Option.some.inj hmap
  refine ⟨T', hT', by decide, by decide, by decide, hbefore, hafter, fun hlocal => ?_⟩
  have hsame := hlocal .nsArray (by decide) (.beyond .arrayI_objectAtIndex)
  rw [hafter, hbefore] at hsame
  cases hsame

end LeYiDai
