import TriggerGraph.Proofs.Dictionaries

/-!
# Setting a value among loose keys

A lookup takes what stands behind the first occurrence of a key, whether that is a value or another
key.  In a dictionary with a key that has no value, setting one key can therefore be seen at another
one: a key that is appended becomes the value of the key in front of it, and a text that is set can
overwrite a key.  Nothing else is disturbed, and a text that was set is found unless the key was
there without a value.
-/

namespace TriggerGraph.Markup.Element

/-! ## Lookups in a row of elements -/

theorem forall_isKey_iff {key : String} {places : List (Nat × Element)} :
    (∀ place ∈ places, place.2.isKey key = false) ↔
      ¬∃ place ∈ places, place.2.isKey key = true := by
  simp

/-- A key that occurs in front has its value there, or else it is what follows at once. -/
theorem positionAfter_append_of_exists {key : String} {front : List (Nat × Element)}
    (occurs : ∃ place ∈ front, place.2.isKey key = true) (back : List (Nat × Element)) :
    positionAfter key (front ++ back) =
      (positionAfter key front).or (back.head?.map (·.1)) := by
  induction front with
  | nil => simp at occurs
  | cons first front ih =>
      rw [List.cons_append, positionAfter, positionAfter]
      split
      · rw [List.head?_append]
        cases front.head? <;> rfl
      · rename_i other
        refine ih ?_
        simpa [other] using occurs

/-- Where an element is replaced, a key is found elsewhere exactly if it is not found in front, if
one of the two elements spells it and the other does not, and if there is anything behind. -/
theorem positionAfter_replace_iff {key : String} {front back : List (Nat × Element)} {index : Nat}
    {old new : Element} (distinct : (back.map (·.1)).Nodup) :
    positionAfter key (front ++ (index, new) :: back) =
        positionAfter key (front ++ (index, old) :: back) ↔
      ((∀ place ∈ front, place.2.isKey key = false) → new.isKey key ≠ old.isKey key →
        back = []) := by
  by_cases occurs : ∃ place ∈ front, place.2.isKey key = true
  · rw [positionAfter_append_of_exists occurs, positionAfter_append_of_exists occurs]
    exact iff_of_true rfl fun absent => absurd occurs (forall_isKey_iff.1 absent)
  · have absent := forall_isKey_iff.2 occurs
    rw [positionAfter_append_of_forall absent, positionAfter_append_of_forall absent]
    refine Iff.trans ?_ ⟨fun ends _ => ends, fun ends => ends absent⟩
    simp only [positionAfter]
    cases back with
    | nil => simp [positionAfter]
    | cons next rest =>
        have behind := positionAfter_ne_of_head? key distinct rfl
        cases new.isKey key <;> cases old.isKey key <;> simp [behind, behind.symm]

/-- The row of elements before and after one of them is replaced. -/
theorem elements_set {element child : Element} {index : Nat}
    (here : element.children[index]? = some child.toNode) :
    ∃ front back, element.elements = front ++ (index, child) :: back ∧
      (∀ place ∈ front, place.1 < index) ∧ (∀ place ∈ back, index < place.1) ∧
      ∀ new : Element, elements { element with children := element.children.set index new.toNode } =
        front ++ (index, new) :: back := by
  obtain ⟨inside, same⟩ := List.getElem?_eq_some_iff.1 here
  obtain ⟨before, after, whole, rfl, -⟩ := @List.exists_of_set _ _ child.toNode _ inside
  rw [same] at whole
  have row (new : Element) : elements ⟨element.tag, before ++ new.toNode :: after⟩ =
      elements ⟨element.tag, before⟩ ++ (before.length, new) ::
        (after.zipIdx (before.length + 1)).filterMap
          fun place => place.1.toElement?.map fun e => (place.2, e) := by
    simp [elements, List.zipIdx_append]
  refine ⟨_, _, Eq.trans ?_ (row child), ?_, ?_, fun new => Eq.trans ?_ (row new)⟩
  · rw [← whole]
  · intro place member
    exact (List.getElem?_eq_some_iff.1 (mem_elements.1 member)).1
  · intro place member
    obtain ⟨⟨node, position⟩, listed, found⟩ := List.mem_filterMap.1 member
    obtain ⟨_, -, rfl⟩ := Option.map_eq_some_iff.1 found
    exact List.le_snd_of_mem_zipIdx listed
  · rw [whole, List.set_append_right _ _ (Nat.le_refl _), Nat.sub_self, List.set_cons_zero]

/-! ## Keys that have no value -/

theorem value?_eq_none_iff {element : Element} {key : String} :
    element.value? key = none ↔ element.valueIndex? key = none := by
  cases found : element.valueIndex? key with
  | none => simp [value?, found]
  | some index =>
      obtain ⟨child, -, held⟩ := child_of_valueIndex? found
      simp [held]

/-- A key that occurs and has no value. -/
def LacksValue (element : Element) (key : String) : Prop :=
  element.value? key = none ∧ ∃ place ∈ element.elements, place.2.isKey key = true

instance (element : Element) (key : String) : Decidable (element.LacksValue key) :=
  inferInstanceAs (Decidable (_ ∧ ∃ place ∈ element.elements, place.2.isKey key = true))

/-- How setting a key to a text can be seen at another key. -/
inductive Disturbs (element : Element) (key text other : String) : Prop where
  /-- The key is appended behind another one that has no value. -/
  | appended (missing : element.value? key = none) (lacks : element.LacksValue other)
  /-- The value of the key is itself a key, the first to spell the other one before or after it is
  overwritten, and there is an element behind it. -/
  | overwritten {index : Nat} {child : Element} (found : element.valueIndex? key = some index)
      (held : element.value? key = some child) (isKey : child.name = "k")
      (changes : child.isKey other = true ↔ text ≠ other)
      (first : ∀ place ∈ element.elements, place.1 < index → place.2.isKey other = false)
      (behind : ∃ place ∈ element.elements, index < place.1)

theorem isKey_setText (child : Element) (text other : String) :
    (child.setText text).isKey other = (child.name == "k" && text == other) := by
  have named : (child.setText text).name = child.name := rfl
  rw [isKey, named, text_setText]

theorem isKey_setText_ne_iff {child : Element} {text other : String} :
    (child.setText text).isKey other ≠ child.isKey other ↔
      child.name = "k" ∧ (child.isKey other = true ↔ text ≠ other) := by
  rw [isKey_setText]
  by_cases named : child.name = "k"
  · by_cases same : text = other <;> cases child.isKey other <;> simp [named, same]
  · simp [isKey_of_name_ne named, named]

theorem isKey_ofText_of_ne {key other : String} (ne : other ≠ key) :
    (ofText "k" key).isKey other = false := by
  rw [ofText, isKey_setText, Bool.and_eq_false_iff]
  exact .inr (beq_false_of_ne ne.symm)

/-! ## A key that has a value -/

section Overwritten

variable {element child : Element} {key : String} {index : Nat}
  (found : element.valueIndex? key = some index)
  (here : element.children[index]? = some child.toNode) (text : String)
include found here

theorem valueIndex?_setString_of_some :
    (element.setString key text).valueIndex? key = some index := by
  obtain ⟨front, back, row, -, after, replaced⟩ := elements_set here
  rw [setString_of_some text found here, valueIndex?, replaced]
  rw [valueIndex?, row] at found
  by_cases occurs : ∃ place ∈ front, place.2.isKey key = true
  · rw [positionAfter_append_of_exists occurs] at found ⊢
    exact found
  · -- behind the value itself the value cannot be found
    rw [positionAfter_append_of_forall (forall_isKey_iff.2 occurs)] at found
    obtain ⟨other, member⟩ := mem_of_positionAfter found
    exact absurd (after _ member) (Nat.lt_irrefl _)

theorem valueIndex?_setString_of_some_iff {other : String} :
    (element.setString key text).valueIndex? other = element.valueIndex? other ↔
      ¬element.Disturbs key text other := by
  obtain ⟨front, back, row, before, after, replaced⟩ := elements_set here
  have held : element.value? key = some child := by simp [value?, found, here]
  have distinct : (back.map (·.1)).Nodup := by
    have whole := nodup_elements element
    rw [row, List.map_append, List.map_cons] at whole
    exact (List.nodup_cons.1 (List.nodup_append.1 whole).2.1).2
  rw [setString_of_some text found here, valueIndex?, valueIndex?, replaced, row,
    positionAfter_replace_iff distinct]
  constructor
  · rintro ends (⟨missing, -⟩ | ⟨found', held', isKey, changes, first, place, member, behind⟩)
    · rw [held] at missing
      cases missing
    · cases found.symm.trans found'
      cases held.symm.trans held'
      have ended := ends (fun place member => first place (by simp [row, member])
        (before place member)) (isKey_setText_ne_iff.2 ⟨isKey, changes⟩)
      rw [row, ended, List.mem_append, List.mem_singleton] at member
      rcases member with earlier | rfl
      · exact Nat.lt_asymm behind (before place earlier)
      · exact Nat.lt_irrefl _ behind
  · intro undisturbed absent differs
    by_contra more
    obtain ⟨next, rest, rfl⟩ := List.exists_cons_of_ne_nil more
    obtain ⟨isKey, changes⟩ := isKey_setText_ne_iff.1 differs
    refine undisturbed (.overwritten found held isKey changes ?_
      ⟨next, by simp [row], after next List.mem_cons_self⟩)
    intro place member earlier
    rw [row, List.mem_append, List.mem_cons] at member
    rcases member with front | rfl | back
    · exact absent place front
    · exact absurd earlier (Nat.lt_irrefl _)
    · exact absurd (after place back) (Nat.lt_asymm earlier)

end Overwritten

/-! ## A key that has none -/

section Appended

variable {element : Element} {key : String} (missing : element.valueIndex? key = none)
  (text : String)
include missing

theorem valueIndex?_setString_of_none_iff {other : String} (ne : other ≠ key) :
    (element.setString key text).valueIndex? other = element.valueIndex? other ↔
      ¬element.Disturbs key text other := by
  have absurdity {index : Nat} (found : element.valueIndex? key = some index) : False := by
    rw [missing] at found
    cases found
  rw [setString_of_none text missing, valueIndex?, elements_append]
  cases there : element.valueIndex? other with
  | some position =>
      refine iff_of_true (positionAfter_append there _) ?_
      rintro (⟨-, lacks, -⟩ | ⟨found, -⟩)
      · rw [value?_eq_none_iff, there] at lacks
        cases lacks
      · exact absurdity found
  | none =>
      by_cases occurs : ∃ place ∈ element.elements, place.2.isKey other = true
      · have nowhere : positionAfter other element.elements = none := there
        rw [positionAfter_append_of_exists occurs, nowhere]
        refine iff_of_false (by simp) (not_not_intro (.appended ?_ ⟨?_, occurs⟩))
        · exact value?_eq_none_iff.2 missing
        · exact value?_eq_none_iff.2 there
      · rw [positionAfter_append_of_forall (forall_isKey_iff.2 occurs)]
        have plain : (ofText "s" text).name ≠ "k" := by
          change "s" ≠ "k"
          decide
        refine iff_of_true ?_ ?_
        · rw [positionAfter, isKey_ofText_of_ne ne, if_neg Bool.false_ne_true, positionAfter,
            isKey_of_name_ne plain, if_neg Bool.false_ne_true, positionAfter]
        · rintro (⟨-, -, spelled⟩ | ⟨found, -⟩)
          · exact occurs spelled
          · exact absurdity found

end Appended

/-! ## Any key -/

section Any

variable (element : Element) (key text : String)

/-- A key that is found where it was has the value that it had. -/
theorem value?_setString_of_valueIndex? {other : String} (ne : other ≠ key)
    (same : (element.setString key text).valueIndex? other = element.valueIndex? other) :
    (element.setString key text).value? other = element.value? other := by
  rw [value?, value?, same]
  cases there : element.valueIndex? other with
  | none => rfl
  | some position =>
      obtain ⟨held, inside, -⟩ := child_of_valueIndex? there
      cases found : element.valueIndex? key with
      | some index =>
          obtain ⟨child, here, -⟩ := child_of_valueIndex? found
          have apart : index ≠ position := by
            rintro rfl
            exact ne (key_of_positionAfter (nodup_elements element) there found)
          rw [setString_of_some text found here, Option.bind_some, Option.bind_some,
            List.getElem?_set_ne apart]
      | none =>
          have within := (List.getElem?_eq_some_iff.1 inside).1
          rw [setString_of_none text found, withChildren, Option.bind_some, Option.bind_some,
            List.getElem?_append_left within]

theorem valueIndex?_setString_eq_iff {other : String} (ne : other ≠ key) :
    (element.setString key text).valueIndex? other = element.valueIndex? other ↔
      ¬element.Disturbs key text other := by
  cases found : element.valueIndex? key with
  | none => exact valueIndex?_setString_of_none_iff found text ne
  | some index =>
      obtain ⟨child, here, -⟩ := child_of_valueIndex? found
      exact valueIndex?_setString_of_some_iff found here text

/-- What is found at a key that was set is the text, or else the key itself, appended behind another
occurrence of it. -/
theorem exists_value?_setString :
    ∃ child, (element.setString key text).value? key = some child ∧
      (child.text = .ok text ↔ (element.LacksValue key → text = key)) := by
  cases found : element.valueIndex? key with
  | some index =>
      obtain ⟨child, here, held⟩ := child_of_valueIndex? found
      obtain ⟨inside, -⟩ := List.getElem?_eq_some_iff.1 here
      refine ⟨child.setText text, ?_, iff_of_true (text_setText child text) fun lacks => ?_⟩
      · rw [value?, valueIndex?_setString_of_some found here text,
          setString_of_some text found here]
        simp [inside]
      · have missing := lacks.1
        rw [held] at missing
        cases missing
  | none =>
      have nowhere : positionAfter key element.elements = none := found
      rw [value?, setString_of_none text found, valueIndex?, elements_append]
      by_cases occurs : ∃ place ∈ element.elements, place.2.isKey key = true
      · refine ⟨ofText "k" key, ?_, ?_⟩
        · rw [positionAfter_append_of_exists occurs, nowhere]
          simp [withChildren]
        · have read : (ofText "k" key).text = .ok key := text_setText _ key
          rw [read, Except.ok.injEq]
          refine ⟨fun same _ => same.symm, fun same => (same ⟨?_, occurs⟩).symm⟩
          exact value?_eq_none_iff.2 found
      · refine ⟨ofText "s" text, ?_, iff_of_true (text_setText _ text) ?_⟩
        · rw [positionAfter_append_of_forall (forall_isKey_iff.2 occurs), positionAfter,
            isKey_ofText]
          simp [withChildren]
        · rintro ⟨-, spelled⟩
          exact absurd spelled occurs

end Any

/-! ## A key that can be set -/

section Settable

variable {element : Element} {key : String} (settable : element.IsSettable key) (text : String)
include settable

theorem not_lacksValue_of_isSettable : ¬element.LacksValue key := by
  rintro ⟨missing, occurs⟩
  exact forall_isKey_iff.1 (settable.absent (value?_eq_none_iff.1 missing)) occurs

/-- A text that was set is found. -/
theorem value?_setString_self :
    ∃ child, (element.setString key text).value? key = some child ∧ child.text = .ok text := by
  obtain ⟨child, found, reads⟩ := exists_value?_setString element key text
  exact ⟨child, found, reads.2 fun lacks => absurd lacks (not_lacksValue_of_isSettable settable)⟩

/-- The values of other keys are not touched. -/
theorem value?_setString_of_ne {other : String} (ne : other ≠ key) {child : Element}
    (held : element.value? other = some child) :
    (element.setString key text).value? other = some child := by
  have undisturbed : ¬element.Disturbs key text other := by
    rintro (⟨-, missing, -⟩ | ⟨-, value, isKey, -⟩)
    · rw [held] at missing
      cases missing
    · exact settable.value _ value isKey
  rw [value?_setString_of_valueIndex? element key text ne
    ((valueIndex?_setString_eq_iff element key text ne).2 undisturbed), held]

/-- What was set before is forgotten. -/
theorem setString_setString (again : String) :
    (element.setString key text).setString key again = element.setString key again := by
  cases found : element.valueIndex? key with
  | some index =>
      obtain ⟨child, here, -⟩ := child_of_valueIndex? found
      have place := valueIndex?_setString_of_some found here text
      obtain ⟨inside, -⟩ := List.getElem?_eq_some_iff.1 here
      rw [setString_of_some text found here] at place
      have there : (element.children.set index (child.setText text).toNode)[index]? =
          some (child.setText text).toNode := by simp [inside]
      rw [setString_of_some text found here, setString_of_some again found here,
        setString_of_some again place there]
      exact congrArg (Element.mk element.tag) (List.set_set _)
  | none =>
      have place : (element.setString key text).valueIndex? key =
          some (element.children.length + 1) := by
        rw [setString_of_none text found, valueIndex?, elements_append,
          positionAfter_append_of_forall (settable.absent found), positionAfter, isKey_ofText]
        rfl
      rw [setString_of_none text found] at place
      have there : (element.children ++ [(ofText "k" key).toNode, (ofText "s" text).toNode])[
          element.children.length + 1]? = some (ofText "s" text).toNode := by simp
      rw [setString_of_none text found, setString_of_none again found,
        setString_of_some again place there]
      simp [withChildren, ofText, setText]

end Settable

/-- A text that was set is found unless the key was there without a value, and another key is found
where it was, with the value that it had, unless it is disturbed. -/
theorem set_text_is_found_iff (element : Element) (key text : String) :
    (∃ child, (element.setString key text).value? key = some child ∧
      (child.text = .ok text ↔ (element.LacksValue key → text = key))) ∧
    ∀ other, other ≠ key →
      ((element.setString key text).valueIndex? other = element.valueIndex? other ∧
          (element.setString key text).value? other = element.value? other ↔
        ¬element.Disturbs key text other) := by
  refine ⟨exists_value?_setString element key text, fun other ne => ?_⟩
  rw [← valueIndex?_setString_eq_iff element key text ne]
  exact and_iff_left_of_imp (value?_setString_of_valueIndex? element key text ne)

/-- A dictionary with the given elements. -/
def dictionary (row : List Element) : Element := (ofName "d").withChildren (row.map toNode)

/-- Two keys in front of a value, and one more at the end. -/
def looseKeys : Element :=
  dictionary [ofText "k" "a", ofText "k" "b", ofText "s" "x", ofText "k" "c"]

/-- The value of the second key is set, and the other two keys are not disturbed. -/
theorem value_behind_loose_keys_is_found :
    looseKeys.LacksValue "c" ∧
      (∃ child, (looseKeys.setString "b" "y").value? "b" = some child ∧ child.text = .ok "y") ∧
      (looseKeys.setString "b" "y").value? "a" = some (ofText "k" "b") ∧
      (looseKeys.setString "b" "y").value? "c" = none := by
  have value : looseKeys.value? "b" = some (ofText "s" "x") := by decide +kernel
  have undisturbed (other : String) : ¬looseKeys.Disturbs "b" "y" other := by
    rintro (⟨missing, -⟩ | ⟨-, held, isKey, -⟩)
    · rw [value] at missing
      cases missing
    · cases value.symm.trans held
      revert isKey
      decide
  obtain ⟨⟨child, found, reads⟩, others⟩ := set_text_is_found_iff looseKeys "b" "y"
  refine ⟨by decide +kernel, ⟨child, found, reads.2 fun lacks => ?_⟩, ?_, ?_⟩
  · rw [LacksValue, value] at lacks
    cases lacks.1
  · rw [((others "a" (by decide)).2 (undisturbed "a")).2]
    decide +kernel
  · rw [((others "c" (by decide)).2 (undisturbed "c")).2]
    decide +kernel

/-- A text that is set at a key without a value is not found: the key is found instead.  And a text
that is set at a key in front of another one takes the place of that one. -/
theorem text_set_at_loose_key_is_lost :
    ((dictionary [ofText "k" "k4"]).setString "k4" "new").value? "k4" = some (ofText "k" "k4") ∧
      (ofText "k" "k4").text = .ok "k4" ∧
      looseKeys.value? "b" = some (ofText "s" "x") ∧
      (looseKeys.setString "a" "new").value? "b" = none ∧
      looseKeys.value? "c" = none ∧
      (looseKeys.setString "d" "new").value? "c" = some (ofText "k" "d") := by
  decide +kernel

end TriggerGraph.Markup.Element
