import LeYiDai.Category.CFSwzzling

/-! NSArray (beyond): in a release build eight exchanges put bounds checks in front of the two
    element accessors of Foundation's array classes. The checks are methods of NSArray; where a
    class has an accessor of its own the exchange is made in NSArray, otherwise in the class.

        __NSArrayI, own accessors       objectAtIndex:         ⇄ arrayI_objectAtIndex:
                                        objectAtIndexedSubscript: ⇄ arrayI_objectAtIndexedSubscript:
        __NSSingleObjectArrayI          objectAtIndex:         ⇄ singleObjectArrayI_objectAtIndex:
                                        objectAtIndex:         ⇄ singleObjectArrayI_objectAtIndexedSubscript:

    The last exchange names the first accessor again, so the subscript of a one-object array is
    never checked. -/

namespace LeYiDai

open MethodTable

inductive ArrayClass where
  | nsArray | nsMutableArray | nsArray0 | nsArrayI | nsArrayM | nsSingleObjectArrayI
  deriving DecidableEq

def ArrayClass.superclass : ArrayClass → Option ArrayClass
  | nsArray => none
  | nsArrayM => some nsMutableArray
  | nsMutableArray | nsArray0 | nsArrayI | nsSingleObjectArrayI => some nsArray

def ArrayClass.depth : ArrayClass → ℕ
  | nsArray => 0
  | nsArrayM => 2
  | nsMutableArray | nsArray0 | nsArrayI | nsSingleObjectArrayI => 1

def arrayHierarchy : Hierarchy ArrayClass where
  superclass := ArrayClass.superclass
  depth := ArrayClass.depth
  superclass_depth c d h := by cases c <;> cases h <;> decide

inductive Accessor where
  | objectAtIndex | objectAtIndexedSubscript
  deriving DecidableEq

/-- The methods the category adds to NSArray. -/
inductive BeyondMethod where
  | emptyArray_objectAtIndex | arrayI_objectAtIndex | arrayM_objectAtIndex
  | singleObjectArrayI_objectAtIndex
  | emptyArray_objectAtIndexedSubscript | arrayI_objectAtIndexedSubscript
  | arrayM_objectAtIndexedSubscript | singleObjectArrayI_objectAtIndexedSubscript
  deriving DecidableEq

inductive ArraySelector where
  | accessor (a : Accessor)
  | beyond (m : BeyondMethod)
  deriving DecidableEq

/-- The implementations in the table: Foundation's accessors, and the category's methods under the
    names they are written with. -/
inductive ArrayImp where
  | foundation
  | beyond (m : BeyondMethod)
  deriving DecidableEq

/-- What an accessor comes back with: an object or nil, or an exception. -/
inductive Answer (α : Type*) where
  | returns (object : Option α)
  | raises
  deriving DecidableEq

/-- An array object: the empty class has no objects, the one-object class exactly one. -/
structure ArrayObject (α : Type*) where
  isa : ArrayClass
  objects : List α
  concrete : isa ≠ .nsArray ∧ isa ≠ .nsMutableArray
  empty : isa = .nsArray0 → objects = []
  single : isa = .nsSingleObjectArrayI → objects.length = 1

variable {α : Type*}

/-- `if(index < self.count){ return [self …:index]; } return nil;` -/
def checked (objects : List α) (m : BeyondMethod) (index : ℕ)
    (send : ArraySelector → ℕ → Option (Answer α)) : Option (Answer α) :=
  if index < objects.length then send (.beyond m) index else some (.returns none)

/-- The methods' bodies. Foundation's accessors return the object in range, raise out of range and
    send nothing; the subscript checks of `__NSArrayI` and `__NSArrayM` go on to the selector of
    the other accessor's check. -/
def perform (objects : List α) :
    ArrayImp → ℕ → (ArraySelector → ℕ → Option (Answer α)) → Option (Answer α)
  | .foundation, index, _ => some ((objects[index]?).elim .raises fun x => .returns (some x))
  | .beyond .emptyArray_objectAtIndex, _, _ => some (.returns none)
  | .beyond .arrayI_objectAtIndex, index, send =>
    checked objects .arrayI_objectAtIndex index send
  | .beyond .arrayM_objectAtIndex, index, send =>
    checked objects .arrayM_objectAtIndex index send
  | .beyond .singleObjectArrayI_objectAtIndex, index, send =>
    checked objects .singleObjectArrayI_objectAtIndex index send
  | .beyond .emptyArray_objectAtIndexedSubscript, _, _ => some (.returns none)
  | .beyond .arrayI_objectAtIndexedSubscript, index, send =>
    checked objects .arrayI_objectAtIndex index send
  | .beyond .arrayM_objectAtIndexedSubscript, index, send =>
    checked objects .arrayM_objectAtIndex index send
  | .beyond .singleObjectArrayI_objectAtIndexedSubscript, index, send =>
    checked objects .singleObjectArrayI_objectAtIndexedSubscript index send

/-- The table before `load`: NSArray has both accessors and the category's methods; `owns` says
    which other classes have accessors of their own. -/
def foundationMethods (owns : ArrayClass → Accessor → Bool) :
    MethodTable ArrayClass ArraySelector ArrayImp
  | c, .accessor a => if c = .nsArray ∨ owns c a then some .foundation else none
  | c, .beyond m => if c = .nsArray then some (.beyond m) else none

/-- The exchanges of `load`, in order. -/
def beyondExchanges : List (ArrayClass × ArraySelector × ArraySelector) :=
  [(.nsArray0, .accessor .objectAtIndex, .beyond .emptyArray_objectAtIndex),
   (.nsArrayI, .accessor .objectAtIndex, .beyond .arrayI_objectAtIndex),
   (.nsArrayM, .accessor .objectAtIndex, .beyond .arrayM_objectAtIndex),
   (.nsSingleObjectArrayI, .accessor .objectAtIndex, .beyond .singleObjectArrayI_objectAtIndex),
   (.nsArray0, .accessor .objectAtIndexedSubscript, .beyond .emptyArray_objectAtIndexedSubscript),
   (.nsArrayI, .accessor .objectAtIndexedSubscript, .beyond .arrayI_objectAtIndexedSubscript),
   (.nsArrayM, .accessor .objectAtIndexedSubscript, .beyond .arrayM_objectAtIndexedSubscript),
   (.nsSingleObjectArrayI, .accessor .objectAtIndex,
    .beyond .singleObjectArrayI_objectAtIndexedSubscript)]

/-- `+load` of a release build. -/
def beyondLoad (owns : ArrayClass → Accessor → Bool) :
    Option (MethodTable ArrayClass ArraySelector ArrayImp) :=
  exchangeMethods arrayHierarchy (foundationMethods owns) beyondExchanges

/-- What a selector is implemented by before `load`. -/
def ArraySelector.imp : ArraySelector → ArrayImp
  | .accessor _ => .foundation
  | .beyond m => .beyond m

variable {owns : ArrayClass → Accessor → Bool} {T : MethodTable ArrayClass ArraySelector ArrayImp}
  {c : ArrayClass} {s : ArraySelector}

theorem nsArray_mem_ancestry (c : ArrayClass) : .nsArray ∈ arrayHierarchy.ancestry c := by
  cases c <;> decide

/-- Before `load` every class answers every selector with its implementation. -/
theorem foundationMethods_lookup (owns : ArrayClass → Accessor → Bool) (c : ArrayClass)
    (s : ArraySelector) :
    (foundationMethods owns).lookup arrayHierarchy c s = some s.imp := by
  have hentry : ∀ d i, foundationMethods owns d s = some i → i = s.imp := by
    intro d i h
    cases s <;> simp only [foundationMethods] at h <;> split_ifs at h <;> cases h <;> rfl
  have hroot : foundationMethods owns .nsArray s = some s.imp := by
    cases s <;> simp [foundationMethods, ArraySelector.imp]
  have hsome : ((foundationMethods owns).lookup arrayHierarchy c s).isSome :=
    lookup_isSome_iff.mpr ⟨_, nsArray_mem_ancestry c, by rw [hroot]; rfl⟩
  obtain ⟨i, hi⟩ := Option.isSome_iff_exists.mp hsome
  obtain ⟨d, -, hd⟩ := List.exists_of_findSome?_eq_some hi
  rw [hi, hentry d i hd]

theorem beyondLoad_isSome (owns : ArrayClass → Accessor → Bool) : (beyondLoad owns).isSome :=
  exchangeMethods_isSome _ _ fun x _ => by simp [foundationMethods_lookup]

/-- After `load` a class answers a selector with the implementation the exchanges lead back to. -/
theorem beyondLoad_lookup (h : beyondLoad owns = some T)
    (hpass : PassedBy arrayHierarchy c s beyondExchanges) :
    T.lookup arrayHierarchy c s = some (formerSelector c s beyondExchanges).imp := by
  rw [exchangeMethods_lookup _ _ (fun x _ => by simp [foundationMethods_lookup]) h hpass,
    foundationMethods_lookup]

/-! ### What the accessors answer -/

variable {look : ArraySelector → Option ArrayImp} {objects : List α} {index : ℕ}
  {m m' : BeyondMethod}

/-- Foundation's accessor: the object in range, an exception out of range. -/
theorem answers_foundation (objects : List α) (index : ℕ) (hs : look s = some .foundation) :
    Answers look (perform objects) s index
      ((objects[index]?).elim .raises fun x => .returns (some x)) :=
  .leaf hs fun _ => rfl

theorem answers_foundation_of_lt (objects : List α) (index : ℕ)
    (hs : look s = some .foundation) (h : index < objects.length) :
    Answers look (perform objects) s index (.returns objects[index]?) := by
  have hanswer := answers_foundation objects index hs
  rwa [List.getElem?_eq_getElem h] at hanswer ⊢

/-- A check in front of a selector that answers in range. -/
theorem answers_checked (hs : look s = some (.beyond m))
    (hbody : perform objects (.beyond m) = checked objects m')
    (hin : index < objects.length →
      Answers look (perform objects) (.beyond m') index (.returns objects[index]?)) :
    Answers look (perform objects) s index (.returns objects[index]?) := by
  by_cases h : index < objects.length
  · exact .tail hs (fun k => by rw [hbody, checked, if_pos h]) (hin h)
  · refine .leaf hs fun k => ?_
    rw [hbody, checked, if_neg h, List.getElem?_eq_none (by omega)]

/-- The selectors that reach Foundation's accessor only after a check: every accessor of the four
    classes but the subscript of a one-object array. -/
theorem beyondLoad_checked (h : beyondLoad owns = some T) (arr : ArrayObject α) (a : Accessor)
    (ha : ¬(arr.isa = .nsSingleObjectArrayI ∧ a = .objectAtIndexedSubscript)) :
    Answers (T.lookup arrayHierarchy arr.isa) (perform arr.objects) (.accessor a) index
      (.returns arr.objects[index]?) := by
  obtain ⟨isa, objects, hconcrete, hempty, hsingle⟩ := arr
  dsimp only at ha ⊢
  have hlook : ∀ {s}, PassedBy arrayHierarchy isa s beyondExchanges →
      T.lookup arrayHierarchy isa s = some (formerSelector isa s beyondExchanges).imp :=
    beyondLoad_lookup h
  cases isa with
  | nsArray => exact absurd rfl hconcrete.1
  | nsMutableArray => exact absurd rfl hconcrete.2
  | nsArray0 =>
    obtain rfl := hempty rfl
    cases a with
    | objectAtIndex => exact .leaf (hlook (by decide)) fun _ => rfl
    | objectAtIndexedSubscript => exact .leaf (hlook (by decide)) fun _ => rfl
  | nsArrayI =>
    have hin := answers_foundation_of_lt objects index
      (hlook (s := .beyond .arrayI_objectAtIndex) (by decide))
    cases a with
    | objectAtIndex => exact answers_checked (hlook (by decide)) rfl hin
    | objectAtIndexedSubscript => exact answers_checked (hlook (by decide)) rfl hin
  | nsArrayM =>
    have hin := answers_foundation_of_lt objects index
      (hlook (s := .beyond .arrayM_objectAtIndex) (by decide))
    cases a with
    | objectAtIndex => exact answers_checked (hlook (by decide)) rfl hin
    | objectAtIndexedSubscript => exact answers_checked (hlook (by decide)) rfl hin
  | nsSingleObjectArrayI =>
    cases a with
    | objectAtIndex =>
      -- the two exchanges of `objectAtIndex:` leave two checks in a row
      refine answers_checked (hlook (by decide)) rfl fun _ => ?_
      refine answers_checked (hlook (by decide)) rfl fun h => ?_
      exact answers_foundation_of_lt objects index (hlook (by decide)) h
    | objectAtIndexedSubscript => exact absurd ⟨rfl, rfl⟩ ha

/-- The subscript of a one-object array is still Foundation's own. -/
theorem beyondLoad_unchecked (h : beyondLoad owns = some T) :
    T.lookup arrayHierarchy .nsSingleObjectArrayI (.accessor .objectAtIndexedSubscript) =
      some .foundation :=
  beyondLoad_lookup h (by decide)

/-- After `load` an accessor comes back with the object in range and nil out of range, unless it is
    a one-object array's subscript out of range, which raises. -/
theorem array_guard_iff (owns : ArrayClass → Accessor → Bool) (arr : ArrayObject α) (a : Accessor)
    (index : ℕ) :
    ∃ T, beyondLoad owns = some T ∧
      (Answers (T.lookup arrayHierarchy arr.isa) (perform arr.objects) (.accessor a) index
          (.returns arr.objects[index]?) ↔
        ¬(arr.isa = .nsSingleObjectArrayI ∧ a = .objectAtIndexedSubscript ∧
          arr.objects.length ≤ index)) := by
  obtain ⟨T, hT⟩ := Option.isSome_iff_exists.mp (beyondLoad_isSome owns)
  refine ⟨T, hT, ?_⟩
  by_cases ha : arr.isa = .nsSingleObjectArrayI ∧ a = .objectAtIndexedSubscript
  · have hanswer := answers_foundation arr.objects index (beyondLoad_unchecked hT)
    rw [← ha.1, ← ha.2] at hanswer
    by_cases hi : index < arr.objects.length
    · rw [List.getElem?_eq_getElem hi] at hanswer ⊢
      exact iff_of_true hanswer fun h => by omega
    · rw [List.getElem?_eq_none (by omega)] at hanswer ⊢
      refine iff_of_false (fun h => ?_) fun h => h ⟨ha.1, ha.2, by omega⟩
      cases hanswer.unique h
  · exact iff_of_true (beyondLoad_checked hT arr a ha) fun h => ha ⟨h.1, h.2.1⟩

/-- One object, subscript 1. -/
theorem single_subscript_raises :
    ∃ T, beyondLoad (fun _ _ => true) = some T ∧
      Answers (T.lookup arrayHierarchy .nsSingleObjectArrayI) (perform ["photo"])
        (.accessor .objectAtIndexedSubscript) 1 .raises ∧
      ¬Answers (T.lookup arrayHierarchy .nsSingleObjectArrayI) (perform ["photo"])
        (.accessor .objectAtIndexedSubscript) 1 (.returns none) := by
  obtain ⟨T, hT⟩ := Option.isSome_iff_exists.mp (beyondLoad_isSome fun _ _ => true)
  have hraises := answers_foundation ["photo"] 1 (beyondLoad_unchecked hT)
  exact ⟨T, hT, hraises, fun h => nomatch hraises.unique h⟩

end LeYiDai
