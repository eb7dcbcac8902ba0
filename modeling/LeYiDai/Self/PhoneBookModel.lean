import LeYiDai.Foundation.Values
import LeYiDai.Lib.Removal

/-! PhoneBookModel: the export of the address book, one entry for each number of each contact. A
    number is cleaned by taking out pieces, "+86" first: what the later removals bring together is
    not looked at again.

        "+86-138"    +86 out   "-138"       - out   "138"
        "+-86138"    +86 out   "+-86138"    - out   "+86138" -/

namespace LeYiDai.PhoneBook

open Removal

/-- Which units combine with the character before them; a search does not find a character that
    something combines with. No ASCII unit combines. -/
structure CombiningUnits where
  combines : UInt16 → Bool
  ascii : ∀ u, u < 128 → combines u = false

/-- The two strings of a contact's name, and its numbers. -/
structure CNContact where
  givenName : NSString
  familyName : NSString
  phoneNumbers : List NSString

structure BookEntry where
  name : NSString
  telephone : NSString
  deriving DecidableEq

/-- `stringByReplacingOccurrencesOfString:withString:` with an empty replacement. -/
def removing (c : CombiningUnits) (piece string : NSString) : NSString :=
  erase c.combines [piece] string

/-- The chain of removals in `openContact`. -/
def cleanUp (c : CombiningUnits) (string : NSString) : NSString :=
  let string := removing c (ns "+86") string
  let string := removing c (ns "-") string
  let string := removing c (ns "(") string
  let string := removing c (ns ")") string
  let string := removing c (ns " ") string
  removing c (ns " ") string

/-- `openContact`, for the contacts the store enumerates. -/
def openContact (c : CombiningUnits) (contacts : List CNContact) : List BookEntry :=
  contacts.foldl (fun booKArr contact =>
    let nameStr := contact.familyName ++ contact.givenName
    contact.phoneNumbers.foldl (fun booKArr string =>
      booKArr ++ [{ name := nameStr, telephone := cleanUp c string }]) booKArr) []

/-- The pieces the chain takes out. -/
def pieces : List NSString := [ns "+86", ns "-", ns "(", ns ")", ns " ", ns " "]

/-- A telephone without any of the pieces, which a second clean-up leaves as it is. -/
def Clean (c : CombiningUnits) (telephone : NSString) : Prop :=
  (∀ p ∈ pieces, ¬Occurs c.combines p telephone) ∧ cleanUp c telephone = telephone

/-- A "+86" whose units stand apart, with nothing but pieces in between: some, or it is a piece
    itself. -/
def Interrupted (c : CombiningUnits) (string : NSString) : Prop :=
  ∃ a g₁ g₂ b, string = a ++ 43 :: (g₁ ++ 56 :: (g₂ ++ 54 :: b)) ∧ Gap pieces g₁ ∧
    Gap pieces g₂ ∧ ¬(g₁ = [] ∧ g₂ = []) ∧ Loose c.combines b

variable {c : CombiningUnits} {string : NSString}

/-- The pieces by their units: "+86", and four of one unit. -/
theorem mem_pieces {p : NSString} :
    p ∈ pieces ↔ p = [43, 56, 54] ∨ ∃ d ∈ ([45, 40, 41, 32] : NSString), p = [d] := by
  have heq : pieces = [[43, 56, 54], [45], [40], [41], [32], [32]] := by decide
  simp [heq]

theorem pieces_pieces (c : CombiningUnits) : Pieces c.combines pieces where
  ne_nil := by decide
  loose p hp x hx := by
    refine c.ascii x ?_
    have hlow : (pieces.all fun p => p.head?.all fun x => x < 128) = true := by decide
    have hhead := List.all_eq_true.mp hlow p hp
    have hx' : p.head? = some x := hx
    rw [hx'] at hhead
    simpa using hhead
  prefix_free := by decide

/-- The chain takes all pieces out in one pass. -/
theorem cleanUp_eq_erase (c : CombiningUnits) (string : NSString) :
    cleanUp c string = erase c.combines pieces string := by
  change List.foldl (fun s d => erase c.combines [[d]] s)
    (erase c.combines [ns "+86"] string) [45, 40, 41, 32, 32] = _
  exact erase_foldl_single [45, 40, 41, 32, 32] [ns "+86"] (pieces_pieces c) string

/-- A telephone is clean iff no piece occurs in it. -/
theorem clean_iff {telephone : NSString} :
    Clean c telephone ↔ ∀ p ∈ pieces, ¬Occurs c.combines p telephone := by
  rw [Clean, cleanUp_eq_erase, erase_eq_self_iff (pieces_pieces c), and_self_iff]

/-- Of the pieces only "+86" can be left by the clean-up. -/
theorem clean_cleanUp_iff :
    Clean c (cleanUp c string) ↔ ¬Occurs c.combines (ns "+86") (cleanUp c string) := by
  rw [clean_iff]
  refine ⟨fun h => h _ (by decide), fun h p hp => ?_⟩
  rcases mem_pieces.mp hp with rfl | ⟨d, -, rfl⟩
  · exact h
  · rw [cleanUp_eq_erase]
    exact not_occurs_single (pieces_pieces c) hp string

/-- A gap begins with the first unit of a piece. -/
theorem gap_cases {g : NSString} (hg : Gap pieces g) :
    g = [] ∨ ∃ u t, g = u :: t ∧ u ≠ 56 ∧ u ≠ 54 := by
  cases hg with
  | nil => exact .inl rfl
  | @cons p g hp hg =>
    right
    rcases mem_pieces.mp hp with rfl | ⟨d, hd, rfl⟩
    · exact ⟨43, 56 :: 54 :: g, rfl, by decide, by decide⟩
    · refine ⟨d, g, rfl, ?_⟩
      rcases List.mem_cons.mp hd with rfl | hd
      · decide
      · have hd' : d = 40 ∨ d = 41 ∨ d = 32 := by simpa using hd
        rcases hd' with rfl | rfl | rfl <;> decide

/-- The clean-up leaves a "+86" iff one is interrupted by pieces. -/
theorem occurs_cleanUp_iff :
    Occurs c.combines (ns "+86") (cleanUp c string) ↔ Interrupted c string := by
  have hp := pieces_pieces c
  have hplus : ns "+86" = [43, 56, 54] := by decide
  rw [cleanUp_eq_erase, hplus]
  constructor
  · rintro ⟨a, b, hab, hb⟩
    obtain ⟨a', r, hs, hr⟩ := erase_eq_append hp hab
    obtain ⟨g₀, r₁, hr₀, -, hkept, hr₁⟩ := erase_eq_cons hp hr
    obtain ⟨g₁, r₂, hg₁, hgap₁, -, hr₂⟩ := erase_eq_cons hp hr₁
    obtain ⟨g₂, r₃, hg₂, hgap₂, -, hr₃⟩ := erase_eq_cons hp hr₂
    have hloose : Loose c.combines r₃ := by
      rw [← loose_erase hp, hr₃]
      exact hb
    refine ⟨a' ++ g₀, g₁, g₂, r₃, ?_, hgap₁, hgap₂, ?_, hloose⟩
    · rw [hs, hr₀, hg₁, hg₂]
      simp
    · rintro ⟨rfl, rfl⟩
      rw [hg₁, hg₂] at hkept
      exact headPiece_eq_none.mp hkept [43, 56, 54] (by decide) ⟨⟨r₃, rfl⟩, hloose⟩
  · rintro ⟨a, g₁, g₂, b, rfl, hgap₁, hgap₂, hapart, hb⟩
    have h56 : Loose c.combines (56 :: (g₂ ++ 54 :: b)) := by simp [Loose, c.ascii]
    have h54 : Loose c.combines (54 :: b) := by simp [Loose, c.ascii]
    obtain ⟨a', ha'⟩ := erase_append (t := 43 :: (g₁ ++ 56 :: (g₂ ++ 54 :: b))) hp
      (by simp only [List.head?_cons, Option.mem_some_iff, forall_eq']; decide) a
    have hkept : headPiece c.combines pieces (43 :: (g₁ ++ 56 :: (g₂ ++ 54 :: b))) = none := by
      rw [headPiece_eq_none]
      rintro p hmem ⟨⟨t, ht⟩, -⟩
      rcases mem_pieces.mp hmem with rfl | ⟨d, hd, rfl⟩
      · -- the units stand together only where both gaps are empty
        simp only [List.cons_append, List.nil_append, List.cons.injEq, true_and] at ht
        rcases gap_cases hgap₁ with rfl | ⟨u, t₁, rfl, hu, -⟩
        · rcases gap_cases hgap₂ with rfl | ⟨u, t₂, rfl, -, hu⟩
          · exact hapart ⟨rfl, rfl⟩
          · simp only [List.nil_append, List.cons_append, List.cons.injEq, true_and] at ht
            exact hu ht.1.symm
        · rw [List.cons_append, List.cons.injEq] at ht
          exact hu ht.1.symm
      · rw [List.singleton_append, List.cons.injEq] at ht
        rw [ht.1] at hd
        revert hd
        decide
    refine ⟨a', erase c.combines pieces b, ?_, (loose_erase hp b).mpr hb⟩
    rw [ha', erase_kept hkept, erase_gap hp hgap₁ h56, erase_cons_of_head (by decide),
      erase_gap hp hgap₂ h54, erase_cons_of_head (by decide)]
    rfl

/-! ### The export -/

/-- The entry of a contact's number. -/
def bookEntry (c : CombiningUnits) (contact : CNContact) (string : NSString) : BookEntry :=
  { name := contact.familyName ++ contact.givenName, telephone := cleanUp c string }

/-- One entry for each number of each contact, in order. -/
theorem openContact_eq (c : CombiningUnits) (contacts : List CNContact) :
    openContact c contacts =
      contacts.flatMap fun contact => contact.phoneNumbers.map (bookEntry c contact) := by
  have hcontact : ∀ (contact : CNContact) (booKArr : List BookEntry),
      contact.phoneNumbers.foldl (fun booKArr string =>
          booKArr ++ [bookEntry c contact string]) booKArr =
        booKArr ++ contact.phoneNumbers.map (bookEntry c contact) := fun contact booKArr => by
    rw [List.foldl_append_eq_append, ← List.flatMap_def, ← List.map_eq_flatMap]
  change contacts.foldl (fun booKArr contact =>
    contact.phoneNumbers.foldl (fun booKArr string =>
      booKArr ++ [bookEntry c contact string]) booKArr) [] = _
  simp only [hcontact]
  rw [List.foldl_append_eq_append, List.nil_append, List.flatMap_def]

/-- The export has one entry for each number of each contact, in order and under the contact's
    name, and every telephone in it is clean, iff no number holds a "+86" that other pieces
    interrupt. -/
theorem openContact_clean_iff (c : CombiningUnits) (contacts : List CNContact) :
    ((openContact c contacts).map (·.name) = (contacts.flatMap fun contact =>
        contact.phoneNumbers.map fun _ => contact.familyName ++ contact.givenName) ∧
      ∀ entry ∈ openContact c contacts, Clean c entry.telephone) ↔
      ∀ contact ∈ contacts, ∀ string ∈ contact.phoneNumbers, ¬Interrupted c string := by
  have hnames : (openContact c contacts).map (·.name) = contacts.flatMap fun contact =>
      contact.phoneNumbers.map fun _ => contact.familyName ++ contact.givenName := by
    rw [openContact_eq, List.map_flatMap]
    simp [bookEntry, Function.comp_def]
  rw [and_iff_right hnames, openContact_eq]
  constructor
  · intro h contact hcontact string hstring
    have hmem : bookEntry c contact string ∈ contacts.flatMap fun contact =>
        contact.phoneNumbers.map (bookEntry c contact) :=
      List.mem_flatMap.mpr ⟨contact, hcontact, List.mem_map_of_mem hstring⟩
    rw [← occurs_cleanUp_iff]
    exact clean_cleanUp_iff.mp (h _ hmem)
  · intro h entry hentry
    obtain ⟨contact, hcontact, hentry⟩ := List.mem_flatMap.mp hentry
    obtain ⟨string, hstring, rfl⟩ := List.mem_map.mp hentry
    refine clean_cleanUp_iff.mpr ?_
    rw [occurs_cleanUp_iff]
    exact h contact hcontact string hstring

/-- "+-8613800000000" is exported as "+8613800000000", which the clean-up shortens again. -/
theorem openContact_plus86_left :
    let c : CombiningUnits := ⟨fun _ => false, fun _ _ => rfl⟩
    openContact c [⟨ns "四", ns "李", [ns "+-8613800000000"]⟩] =
        [⟨ns "李四", ns "+8613800000000"⟩] ∧
      ¬Clean c (ns "+8613800000000") := by
  refine ⟨by decide, fun h => ?_⟩
  exact absurd h.2 (by decide)

end LeYiDai.PhoneBook
