import TriggerGraph.Level.Strip
import TriggerGraph.Proofs.LevelText

/-!
# Dropping marked objects

Stripping is a filter on the segments of a level: whatever the text between two semicolons, it is
copied as it stands or dropped as a whole, by the groups of the object that it is read as.  So it is
done once and for all, it works on the parts of a level one by one, and a level without marked
objects whose objects are all closed comes out as it was.
-/

namespace TriggerGraph.Level

/-! ## Cutting at semicolons -/

/-- The texts between the semicolons of a level. -/
structure IsCut (level : String) (pieces : List (List Char)) : Prop where
  /-- Without a semicolon there is one text. -/
  nonempty : pieces ≠ []
  /-- No text holds a semicolon. -/
  free : ∀ piece ∈ pieces, ';' ∉ piece
  /-- Semicolons between them give the level. -/
  joined : joinWithChar ';' pieces = level.toList

theorem isCut_iff {level : String} {pieces : List (List Char)} :
    IsCut level pieces ↔ pieces = splitAtChar ';' level.toList := by
  constructor
  · intro cut
    rw [← cut.joined, splitAtChar_join cut.nonempty cut.free]
  · rintro rfl
    refine ⟨?_, fun piece member => not_mem_of_mem_splitAtChar member, ?_⟩
    · rw [splitAtChar_eq_splitOn]
      exact List.splitOn_ne_nil _ _
    · rw [joinWithChar_eq_intercalate, splitAtChar_eq_splitOn, List.intercalate_splitOn]

theorem segments_of_isCut {level : String} {pieces : List (List Char)} (cut : IsCut level pieces) :
    segments level.toList = pieces.filter (!·.isEmpty) := by
  rw [segments, isCut_iff.1 cut]

theorem joinWithChar_append_singleton {separator : Char} {pieces : List (List Char)}
    (nonempty : pieces ≠ []) :
    joinWithChar separator pieces ++ [separator] = pieces.flatMap (· ++ [separator]) := by
  induction pieces with
  | nil => exact absurd rfl nonempty
  | cons piece others ih =>
      cases others with
      | nil => simp [joinWithChar]
      | cons next rest =>
          have later := ih (List.cons_ne_nil next rest)
          simp only [joinWithChar, List.append_assoc, List.cons_append, later, List.flatMap_cons,
            List.nil_append]

/-- A closed level is its texts, the empty one at the end left out, with a semicolon behind each. -/
theorem flatMap_dropLast_of_closed {level : String} {pieces : List (List Char)}
    (cut : IsCut level pieces) (closed : level.toList = [] ∨ level.toList.getLast? = some ';') :
    pieces.dropLast.flatMap (· ++ [';']) = level.toList := by
  rw [isCut_iff.1 cut]
  rcases closed with empty | closed
  · rw [empty]
    rfl
  · obtain ⟨front, same⟩ := List.getLast?_eq_some_iff.1 closed
    have inner : IsCut (String.ofList front) (splitAtChar ';' front) :=
      isCut_iff.2 (by rw [String.toList_ofList])
    have last : splitAtChar ';' [] = [[]] := rfl
    rw [same, splitAtChar_append, last, List.dropLast_concat,
      ← joinWithChar_append_singleton inner.nonempty, inner.joined, String.toList_ofList]

/-- A text that consists of closed segments has these segments. -/
theorem segments_of_closed {level : String} {texts : List (List Char)}
    (written : level.toList = texts.flatMap (· ++ [';']))
    (free : ∀ text ∈ texts, ';' ∉ text ∧ text ≠ []) : segments level.toList = texts := by
  rw [written, ← List.append_nil (texts.flatMap _), segments_closed texts [] free, segments_nil,
    List.append_nil]

/-! ## Stripping -/

theorem strip_eq (table : Table) (marker : UInt32) (level : String) :
    strip table marker level =
      { level := String.ofList
          (((segments level.toList).filter fun segment => !isMarked table marker segment).flatMap
            (· ++ [';']))
        removed := ((segments level.toList).filter (isMarked table marker)).length } := by
  rw [strip, List.partition_eq_filter_filter]
  rfl

section Strip

variable (table : Table) (marker : UInt32)

/-- A stripped level is empty or closed. -/
theorem closed_strip (level : String) :
    (strip table marker level).level.toList = [] ∨
      (strip table marker level).level.toList.getLast? = some ';' := by
  rw [strip_eq, String.toList_ofList]
  rcases List.eq_nil_or_concat ((segments level.toList).filter fun segment =>
    !isMarked table marker segment) with none | ⟨others, last, some⟩
  · rw [none]
    exact .inl rfl
  · rw [some]
    exact .inr (by simp)

theorem strip_append {first : String}
    (closed : first.toList = [] ∨ first.toList.getLast? = some ';') (second : String) :
    strip table marker (first ++ second) =
      ⟨(strip table marker first).level ++ (strip table marker second).level,
        (strip table marker first).removed + (strip table marker second).removed⟩ := by
  simp only [strip_eq, String.toList_append, segments_append_of_closed closed, List.filter_append,
    List.flatMap_append, List.length_append, String.ofList_append]

variable {table marker}

/-- Closed segments that do not carry the marker stay as they are. -/
theorem strip_of_unmarked {level : String} {texts : List (List Char)}
    (written : level.toList = texts.flatMap (· ++ [';']))
    (free : ∀ text ∈ texts, ';' ∉ text ∧ text ≠ [])
    (unmarked : ∀ text ∈ texts, isMarked table marker text = false) :
    strip table marker level = ⟨level, 0⟩ := by
  have stays : (texts.filter fun text => !isMarked table marker text) = texts :=
    List.filter_eq_self.2 fun text member => by simp [unmarked text member]
  have drops : texts.filter (isMarked table marker) = [] :=
    List.filter_eq_nil_iff.2 fun text member => by simp [unmarked text member]
  rw [strip_eq, segments_of_closed written free, stays, drops, ← written, String.ofList_toList]
  rfl

/-- Closed segments that all carry the marker are dropped. -/
theorem strip_of_marked {level : String} {texts : List (List Char)}
    (written : level.toList = texts.flatMap (· ++ [';']))
    (free : ∀ text ∈ texts, ';' ∉ text ∧ text ≠ [])
    (marked : ∀ text ∈ texts, isMarked table marker text = true) :
    strip table marker level = ⟨"", texts.length⟩ := by
  have stays : (texts.filter fun text => !isMarked table marker text) = [] :=
    List.filter_eq_nil_iff.2 fun text member => by simp [marked text member]
  have drops : texts.filter (isMarked table marker) = texts :=
    List.filter_eq_self.2 fun text member => marked text member
  rw [strip_eq, segments_of_closed written free, stays, drops]
  rfl

variable (table marker)

/-- What was stripped has nothing left to strip. -/
theorem strip_strip (level : String) :
    strip table marker (strip table marker level).level =
      ⟨(strip table marker level).level, 0⟩ := by
  have written : (strip table marker level).level.toList =
      ((segments level.toList).filter fun segment => !isMarked table marker segment).flatMap
        (· ++ [';']) := by
    rw [strip_eq, String.toList_ofList]
  refine strip_of_unmarked written ?_ ?_
  · intro segment member
    exact segment_spec (List.mem_filter.1 member).1
  · intro segment member
    simpa using (List.mem_filter.1 member).2

end Strip

/-- Stripping copies the segments of unmarked objects and drops the others.  It finds nothing more
to drop in what it gave, it can be done on each side of a semicolon by itself, and it leaves a level
alone that has closed segments of unmarked objects only. -/
theorem strip_filters_segments (table : Table) (marker : UInt32) :
    (∀ level, ∃ pieces, IsCut level pieces) ∧
    (∀ level pieces kept, IsCut level pieces →
      (pieces.filter fun piece =>
        !(decodeSegment table piece).hasGroup marker && !piece.isEmpty) = kept →
      (strip table marker level).level.toList = kept.flatMap (· ++ [';']) ∧
      (strip table marker level).removed + kept.length = (pieces.filter (!·.isEmpty)).length) ∧
    (∀ level, strip table marker (strip table marker level).level =
      ⟨(strip table marker level).level, 0⟩) ∧
    (∀ first second : String, (first.toList = [] ∨ first.toList.getLast? = some ';') →
      strip table marker (first ++ second) =
        ⟨(strip table marker first).level ++ (strip table marker second).level,
          (strip table marker first).removed + (strip table marker second).removed⟩) ∧
    ∀ level pieces, IsCut level pieces →
      (level.toList = [] ∨ level.toList.getLast? = some ';') →
      (∀ piece ∈ pieces.dropLast, piece ≠ []) →
      (∀ object ∈ decode table level, object.hasGroup marker = false) →
      strip table marker level = ⟨level, 0⟩ := by
  refine ⟨fun level => ⟨_, isCut_iff.2 rfl⟩, ?_, strip_strip table marker,
    fun first second closed => strip_append table marker closed second, ?_⟩
  · rintro level pieces kept cut rfl
    rw [← List.filter_filter, ← segments_of_isCut cut, strip_eq]
    refine ⟨String.toList_ofList, ?_⟩
    exact (List.length_eq_length_filter_add (isMarked table marker)).symm
  · intro level pieces cut closed full unmarked
    refine strip_of_unmarked (flatMap_dropLast_of_closed cut closed).symm ?_ ?_
    · intro piece member
      exact ⟨cut.free piece (List.dropLast_subset pieces member), full piece member⟩
    · intro piece member
      refine unmarked _ (List.mem_map_of_mem ?_)
      rw [segments_of_isCut cut, List.mem_filter]
      exact ⟨List.dropLast_subset pieces member, by simpa using full piece member⟩

/-- A marker that is overwritten in its segment does not count, and one that stands in a list does.
-/
theorem strip_keeps_overwritten_marker :
    strip .builtin 9999 ("1,1,57,4.9999;57,9999,57,4;" ++ ";57,1e9,57,9999;1,2") =
        ⟨"57,9999,57,4;1,2;", 2⟩ ∧
      strip .builtin 9999 "57,9999,57,4;1,2;" = ⟨"57,9999,57,4;1,2;", 0⟩ := by
  obtain ⟨-, -, -, append, whole⟩ := strip_filters_segments .builtin 9999
  constructor
  · rw [append _ _ (.inr (by decide))]
    decide +kernel
  · refine whole _ ["57,9999,57,4".toList, "1,2".toList, []] ?_ (.inr (by decide)) ?_ ?_
    · exact isCut_iff.2 (by decide)
    · decide
    · decide +kernel

end TriggerGraph.Level
