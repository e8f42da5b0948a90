import Mathlib.Data.List.TakeWhile
import TriggerGraph.Save.Dictionary

/-!
# Dictionaries

A text survives being escaped. A dictionary sees of its children only which of them are elements and
which keys these spell, so a lookup survives every change of a child that keeps this. Setting a key
changes one child or appends two, and where keys and values take turns no key stands without a value
in its way.
-/

namespace TriggerGraph.Markup

/-! ## Escaped text -/

theorem unescapeFrom_plain {plain : List Char} (free : ∀ c ∈ plain, (c != '&') = true)
    (offset : Nat) : unescapeFrom offset plain = .ok plain := by
  rw [unescapeFrom]
  split
  · rw [List.takeWhile_eq_self_iff.2 free]
  · rename_i more
    rw [List.dropWhile_eq_nil_iff.2 free] at more
    cases more

/-- An entity stands for its character, whatever plain text is in front of it. -/
theorem unescapeFrom_entity {plain name raw text : List Char} {c : Char}
    (free : ∀ c ∈ plain, (c != '&') = true)
    (letters : ∀ c ∈ name, (c != ';' && c != '&') = true)
    (resolved : ∀ offset, resolve offset name = .ok c)
    (rest : ∀ offset, unescapeFrom offset raw = .ok text) (offset : Nat) :
    unescapeFrom offset (plain ++ '&' :: (name ++ ';' :: raw)) = .ok (plain ++ c :: text) := by
  have front : (plain ++ '&' :: (name ++ ';' :: raw)).takeWhile (· != '&') = plain := by
    simp [List.takeWhile_append_of_pos free]
  have back : (plain ++ '&' :: (name ++ ';' :: raw)).dropWhile (· != '&') =
      '&' :: (name ++ ';' :: raw) := by simp [List.dropWhile_append_of_pos free]
  have inner : (name ++ ';' :: raw).takeWhile (fun c => c != ';' && c != '&') = name := by
    simp [List.takeWhile_append_of_pos letters]
  have after : (name ++ ';' :: raw).dropWhile (fun c => c != ';' && c != '&') = ';' :: raw := by
    simp [List.dropWhile_append_of_pos letters]
  rw [unescapeFrom]
  split
  · rename_i ended
    rw [back] at ended
    cases ended
  · rename_i more
    obtain ⟨-, rfl⟩ := List.cons.inj (back.symm.trans more)
    split
    · rename_i closed
      obtain ⟨-, rfl⟩ := List.cons.inj (after.symm.trans closed)
      simp [front, inner, resolved, rest, bind, Except.bind, pure, Except.pure]
    · rename_i unclosed
      exact absurd after (unclosed _)

/-- Every character is itself or an entity that stands for it. -/
theorem escapeChar_spec (c : Char) :
    (escapeChar c = [c] ∧ (c != '&') = true) ∨
      ∃ name, escapeChar c = '&' :: (name ++ [';']) ∧
        name.all (fun c => c != ';' && c != '&') = true ∧
        ∀ offset, resolve offset name = .ok c := by
  unfold escapeChar
  split
  · rename_i same
    exact .inr ⟨"lt".toList, rfl, by decide, fun _ => same ▸ rfl⟩
  split
  · rename_i same
    exact .inr ⟨"gt".toList, rfl, by decide, fun _ => same ▸ rfl⟩
  split
  · rename_i same
    exact .inr ⟨"amp".toList, rfl, by decide, fun _ => same ▸ rfl⟩
  · rename_i plain
    split
    · rename_i same
      exact .inr ⟨"apos".toList, rfl, by decide, fun _ => same ▸ rfl⟩
    split
    · rename_i same
      exact .inr ⟨"quot".toList, rfl, by decide, fun _ => same ▸ rfl⟩
    · exact .inl ⟨rfl, by simpa using plain⟩

theorem unescapeFrom_escape {plain : List Char} (free : ∀ c ∈ plain, (c != '&') = true)
    (text : List Char) (offset : Nat) :
    unescapeFrom offset (plain ++ text.flatMap escapeChar) = .ok (plain ++ text) := by
  induction text generalizing plain offset with
  | nil => exact unescapeFrom_plain (by simpa using free) offset
  | cons c text ih =>
      rw [List.flatMap_cons]
      rcases escapeChar_spec c with ⟨itself, here⟩ | ⟨name, entity, letters, resolved⟩
      · have longer : ∀ d ∈ plain ++ [c], (d != '&') = true := by
          rw [List.forall_mem_append, List.forall_mem_singleton]
          exact ⟨free, here⟩
        have read := ih longer offset
        rw [List.append_assoc, List.append_assoc] at read
        rw [itself]
        exact read
      · have rest : ∀ offset, unescapeFrom offset (text.flatMap escapeChar) = .ok text :=
          ih (List.forall_mem_nil _)
        rw [entity, List.cons_append, List.append_assoc]
        exact unescapeFrom_entity free (List.all_eq_true.1 letters) resolved rest offset

theorem unescape_escape (text : String) : unescape (escape text) = .ok text := by
  have read := unescapeFrom_escape (List.forall_mem_nil _) text.toList 0
  rw [List.nil_append, List.nil_append] at read
  rw [unescape, escape, String.toList_ofList, read]
  exact congrArg Except.ok String.ofList_toList

/-! ## What a dictionary sees of its children -/

namespace Element

/-- The key that an element spells. -/
def key? (element : Element) : Option String :=
  if element.name = "k" then element.text.toOption else none

theorem isKey_eq (key : String) (element : Element) :
    element.isKey key = decide (element.key? = some key) := by
  unfold isKey key?
  by_cases named : element.name = "k"
  · cases element.text <;> simp [named, Except.toOption, beq_eq_decide]
  · simp [named]

theorem positionAfter_congr {key : String} {before after : List (Nat × Element)}
    (same : after.map (fun place => (place.1, place.2.key?)) =
      before.map fun place => (place.1, place.2.key?)) :
    positionAfter key after = positionAfter key before := by
  induction before generalizing after with
  | nil =>
      rw [List.map_nil, List.map_eq_nil_iff] at same
      rw [same]
  | cons first before ih =>
      cases after with
      | nil => cases same
      | cons first' after =>
          simp only [List.map_cons, List.cons.injEq, Prod.mk.injEq] at same
          obtain ⟨⟨position, spelled⟩, later⟩ := same
          have next : after.head?.map (·.1) = before.head?.map (·.1) := by
            have heads := congrArg (fun places => places.head?.map (·.1)) later
            simpa [List.head?_map, Function.comp_def] using heads
          simp only [positionAfter, isKey_eq, spelled, next, ih later]

end Element

/-- What a dictionary sees of a child: whether it is an element, and the key it spells. -/
def Node.face (node : Node) : Option (Option String) := node.toElement?.map Element.key?

namespace Element

theorem map_elements (element : Element) :
    element.elements.map (fun place => (place.1, place.2.key?)) =
      (element.children.map Node.face).zipIdx.filterMap fun (face, index) =>
        face.map fun key => (index, key) := by
  rw [elements, List.map_filterMap, List.zipIdx_map, List.filterMap_map]
  congr 1
  funext ⟨node, index⟩
  simp [Node.face, Function.comp_def]

/-- A lookup depends on the faces of the children alone. -/
theorem valueIndex?_congr {before after : Element} (key : String)
    (same : after.children.map Node.face = before.children.map Node.face) :
    after.valueIndex? key = before.valueIndex? key := by
  refine positionAfter_congr ?_
  rw [map_elements, map_elements, same]

@[simp]
theorem toElement?_toNode (element : Element) : element.toNode.toElement? = some element := rfl

theorem eq_toNode_of_toElement? {node : Node} {element : Element}
    (same : node.toElement? = some element) : node = element.toNode := by
  cases node <;> cases same
  rfl

theorem mem_elements {element child : Element} {index : Nat} :
    (index, child) ∈ element.elements ↔ element.children[index]? = some child.toNode := by
  simp only [elements, List.mem_filterMap, Prod.exists, List.mem_zipIdx_iff_getElem?,
    Option.map_eq_some_iff, Prod.mk.injEq]
  constructor
  · rintro ⟨node, position, here, found, same, rfl, rfl⟩
    rw [here, eq_toNode_of_toElement? same]
  · intro here
    exact ⟨child.toNode, index, here, child, rfl, rfl, rfl⟩

theorem nodup_elements (element : Element) : (element.elements.map (·.1)).Nodup := by
  have positions : element.elements.map (·.1) =
      (element.children.zipIdx.filter (·.1.toElement?.isSome)).map (·.2) := by
    unfold elements
    generalize element.children.zipIdx = nodes
    induction nodes with
    | nil => rfl
    | cons first nodes ih => cases same : first.1.toElement? <;> simp [same, ih]
  rw [positions]
  refine (List.filter_sublist.map _).nodup ?_
  rw [List.zipIdx_map_snd]
  exact List.nodup_range'

theorem mem_of_positionAfter {key : String} {places : List (Nat × Element)} {index : Nat}
    (found : positionAfter key places = some index) : ∃ child, (index, child) ∈ places.tail := by
  induction places with
  | nil => cases found
  | cons first places ih =>
      rw [positionAfter] at found
      split at found
      · obtain ⟨⟨position, child⟩, head, rfl⟩ := Option.map_eq_some_iff.1 found
        exact ⟨child, List.mem_of_head? head⟩
      · obtain ⟨child, member⟩ := ih found
        exact ⟨child, List.mem_of_mem_tail member⟩

/-- What stands first in a row is behind none of the others. -/
theorem positionAfter_ne_of_head? {places : List (Nat × Element)} {index : Nat} (key : String)
    (distinct : (places.map (·.1)).Nodup) (here : places.head?.map (·.1) = some index) :
    positionAfter key places ≠ some index := by
  intro found
  obtain ⟨child, member⟩ := mem_of_positionAfter found
  cases places with
  | nil => cases member
  | cons first places =>
      obtain rfl : first.1 = index := Option.some.inj here
      exact (List.nodup_cons.1 distinct).1 (List.mem_map.2 ⟨_, member, rfl⟩)

/-- Behind an element stands the value of one key at most. -/
theorem key_of_positionAfter {key other : String} {places : List (Nat × Element)} {index : Nat}
    (distinct : (places.map (·.1)).Nodup) (found : positionAfter key places = some index)
    (same : positionAfter other places = some index) : key = other := by
  induction places with
  | nil => cases found
  | cons first places ih =>
      rw [List.map_cons, List.nodup_cons] at distinct
      rw [positionAfter] at found same
      split at found
      · rename_i spelled
        split at same
        · rename_i spelled'
          rw [isKey_eq, decide_eq_true_eq] at spelled spelled'
          exact Option.some.inj (spelled.symm.trans spelled')
        · exact absurd same (positionAfter_ne_of_head? other distinct.2 found)
      · split at same
        · exact absurd found (positionAfter_ne_of_head? key distinct.2 same)
        · exact ih distinct.2 found same

theorem positionAfter_append {key : String} {places : List (Nat × Element)} {index : Nat}
    (found : positionAfter key places = some index) (more : List (Nat × Element)) :
    positionAfter key (places ++ more) = some index := by
  induction places with
  | nil => cases found
  | cons first places ih =>
      rw [positionAfter] at found
      rw [List.cons_append, positionAfter]
      split at found
      · rename_i spelled
        obtain ⟨next, head, rfl⟩ := Option.map_eq_some_iff.1 found
        rw [if_pos spelled, List.head?_append, head]
        rfl
      · rename_i unspelled
        rw [if_neg unspelled]
        exact ih found

theorem positionAfter_append_of_forall {key : String} {places : List (Nat × Element)}
    (absent : ∀ place ∈ places, place.2.isKey key = false) (more : List (Nat × Element)) :
    positionAfter key (places ++ more) = positionAfter key more := by
  induction places with
  | nil => rfl
  | cons first places ih =>
      rw [List.forall_mem_cons] at absent
      rw [List.cons_append, positionAfter, absent.1, if_neg Bool.false_ne_true, ih absent.2]

theorem child_of_valueIndex? {element : Element} {key : String} {index : Nat}
    (found : element.valueIndex? key = some index) :
    ∃ child, element.children[index]? = some child.toNode ∧ element.value? key = some child := by
  obtain ⟨child, member⟩ := mem_of_positionAfter found
  have here := mem_elements.1 (List.mem_of_mem_tail member)
  exact ⟨child, here, by simp [value?, found, here]⟩

/-! ## Setting a value -/

/-- Keys and values take turns. A last key may lack its value unless it is the given one: a key that
is appended behind it would be taken for the value. -/
def TakeTurns (key : String) : List Element → Prop
  | [] => True
  | [last] => last.name = "k" ∧ last.isKey key = false
  | first :: second :: rest => first.name = "k" ∧ second.name ≠ "k" ∧ TakeTurns key rest

instance decidableTakeTurns (key : String) : (row : List Element) → Decidable (TakeTurns key row)
  | [] => inferInstanceAs (Decidable True)
  | [last] => inferInstanceAs (Decidable (last.name = "k" ∧ last.isKey key = false))
  | first :: second :: rest =>
      have := decidableTakeTurns key rest
      inferInstanceAs (Decidable (first.name = "k" ∧ second.name ≠ "k" ∧ TakeTurns key rest))

/-- A key can be set: it has a value that does not spell a key itself, or it does not occur. -/
structure IsSettable (element : Element) (key : String) : Prop where
  /-- A value is no key. -/
  value : ∀ child, element.value? key = some child → child.name ≠ "k"
  /-- A key without a value is none. -/
  absent : element.valueIndex? key = none → ∀ place ∈ element.elements, place.2.isKey key = false

theorem text_setText (child : Element) (text : String) : (child.setText text).text = .ok text := by
  simp [setText, withChildren, Element.text, textOf, unescape_escape, bind, Except.bind, pure,
    Except.pure]

/-- Where a key has a value, only this child changes. -/
theorem setString_of_some {element child : Element} {key : String} {index : Nat} (text : String)
    (found : element.valueIndex? key = some index)
    (here : element.children[index]? = some child.toNode) :
    element.setString key text =
      { element with children := element.children.set index (child.setText text).toNode } := by
  simp only [setString, found]
  congr 1
  refine List.ext_getElem? fun position => ?_
  rw [List.getElem?_modify, List.getElem?_set']
  by_cases same : index = position
  · subst same
    simp [here, toNode]
  · simp [same]

/-- Where a key has no value, it is appended with one. -/
theorem setString_of_none {element : Element} {key : String} (text : String)
    (missing : element.valueIndex? key = none) :
    element.setString key text = element.withChildren
      (element.children ++ [(ofText "k" key).toNode, (ofText "s" text).toNode]) := by
  simp [setString, missing, append, withChildren]

theorem faces_set {nodes : List Node} {index : Nat} {node old : Node}
    (here : nodes[index]? = some old) (same : node.face = old.face) :
    (nodes.set index node).map Node.face = nodes.map Node.face := by
  refine List.ext_getElem? fun position => ?_
  rw [List.getElem?_map, List.getElem?_map, List.getElem?_set']
  by_cases there : index = position
  · subst there
    simp [here, same]
  · simp [there]

theorem elements_append (element first second : Element) :
    (element.withChildren (element.children ++ [first.toNode, second.toNode])).elements =
      element.elements ++
        [(element.children.length, first), (element.children.length + 1, second)] := by
  simp [elements, withChildren, List.zipIdx_append]

theorem isKey_ofText (key : String) : (ofText "k" key).isKey key = true := by
  have text : (ofText "k" key).text = .ok key := text_setText _ key
  simp [isKey, text]
  rfl

theorem isKey_of_name_ne {element : Element} (plain : element.name ≠ "k") (key : String) :
    element.isKey key = false := by
  simp [isKey, plain]

theorem name_of_positionAfter {key : String} : ∀ {places : List (Nat × Element)} {index : Nat},
    TakeTurns key (places.map (·.2)) → positionAfter key places = some index →
      ∃ child, (index, child) ∈ places ∧ child.name ≠ "k"
  | [], _, _, found => by cases found
  | [last], _, turns, found => by simp [positionAfter, turns.2] at found
  | first :: second :: rest, index, turns, found => by
      obtain ⟨-, plain, later⟩ := turns
      rw [positionAfter, positionAfter, isKey_of_name_ne plain, if_neg Bool.false_ne_true] at found
      split at found
      · obtain rfl : second.1 = index := Option.some.inj found
        exact ⟨second.2, by simp, plain⟩
      · obtain ⟨child, member, other⟩ := name_of_positionAfter later found
        exact ⟨child, List.mem_cons_of_mem _ (List.mem_cons_of_mem _ member), other⟩

theorem absent_of_positionAfter {key : String} : ∀ {places : List (Nat × Element)},
    TakeTurns key (places.map (·.2)) → positionAfter key places = none →
      ∀ place ∈ places, place.2.isKey key = false
  | [], _, _ => by simp
  | [last], turns, _ => by simpa using turns.2
  | first :: second :: rest, turns, missing => by
      obtain ⟨-, plain, later⟩ := turns
      rw [positionAfter, positionAfter, isKey_of_name_ne plain, if_neg Bool.false_ne_true]
        at missing
      split at missing
      · cases missing
      · rename_i other
        have none := absent_of_positionAfter later missing
        simp only [List.forall_mem_cons]
        exact ⟨by simpa using other, isKey_of_name_ne plain key, none⟩

/-- In a dictionary whose keys and values take turns, a key can be set. -/
theorem isSettable_of_takeTurns {element : Element} {key : String}
    (turns : TakeTurns key (element.elements.map (·.2))) : element.IsSettable key := by
  refine ⟨fun child held => ?_, absent_of_positionAfter turns⟩
  cases found : element.valueIndex? key with
  | none => simp [value?, found] at held
  | some index =>
      obtain ⟨other, here, value⟩ := child_of_valueIndex? found
      obtain ⟨same, member, plain⟩ := name_of_positionAfter turns found
      have there : some other.toNode = some same.toNode := here.symm.trans (mem_elements.1 member)
      obtain rfl : other = same := Option.some.inj (congrArg (Option.bind · Node.toElement?) there)
      obtain rfl : child = other := Option.some.inj (held.symm.trans value)
      exact plain

end Element

end TriggerGraph.Markup
