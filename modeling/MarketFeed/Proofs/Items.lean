import Mathlib
import MarketFeed.Proofs.Pieces
import MarketFeed.Proofs.Trimming
import MarketFeed.Settings.Load

/-!
# Items of a list

Every list that is read is made of clean items, and clean items that are joined with commas, with or
without white space around them, are read as these items. So the lists that are read are those of
clean items, and to join one and read it again changes nothing.
-/

namespace MarketFeed

structure Clean (item : String) : Prop where
  nonempty : item.toList ≠ []
  noComma : ',' ∉ item.toList
  start : ∀ c ∈ item.toList.head?, isBlank c = false
  stop : ∀ c ∈ item.toList.getLast?, isBlank c = false

theorem Clean.tight {item : String} (h : Clean item) : Tight item.toList := ⟨h.start, h.stop⟩

/-! ## Items of a text -/

theorem clean_of_mem_parseList {text item : String} (h : item ∈ parseList text) : Clean item := by
  obtain ⟨cs, kept, rfl⟩ := List.mem_map.1 h
  obtain ⟨trimmed, filled⟩ := List.mem_filter.1 kept
  obtain ⟨piece, cut, rfl⟩ := List.mem_map.1 trimmed
  have tight := tight_trim piece
  constructor <;> rw [String.toList_ofList]
  · simpa using filled
  · exact fun comma => not_mem_of_mem_pieces cut (mem_of_mem_trim comma)
  · exact tight.start
  · exact tight.stop

theorem parseList_append (text rest : String) :
    parseList (text ++ "," ++ rest) = parseList text ++ parseList rest := by
  have comma : (text ++ "," ++ rest).toList = text.toList ++ ',' :: rest.toList := by simp
  unfold parseList
  rw [comma, pieces_append, List.map_append, List.filter_append, List.map_append]

/-! ## White space around items -/

def Padded (item text : String) : Prop :=
  ∃ left right, (∀ c ∈ left, isBlank c = true) ∧ (∀ c ∈ right, isBlank c = true) ∧
    text.toList = left ++ (item.toList ++ right)

theorem Padded.refl (item : String) : Padded item item := ⟨[], [], by simp⟩

theorem parseList_of_padded {item text : String} (clean : Clean item) (h : Padded item text) :
    parseList text = [item] := by
  obtain ⟨left, right, hl, hr, split⟩ := h
  have noComma : ',' ∉ text.toList := by
    have solid : isBlank ',' ≠ true := by decide
    rw [split, List.mem_append, List.mem_append]
    rintro (comma | comma | comma)
    · exact solid (hl _ comma)
    · exact clean.noComma comma
    · exact solid (hr _ comma)
  have trimmed : trim text.toList = item.toList := by
    rw [split]
    exact trim_padded hl clean.tight hr clean.nonempty
  unfold parseList
  rw [pieces_of_not_mem noComma, List.map_singleton, trimmed,
    List.filter_cons_of_pos (by simpa using clean.nonempty), List.filter_nil, List.map_singleton,
    String.ofList_toList]

theorem parseList_padded {items texts : List String} (clean : ∀ item ∈ items, Clean item)
    (h : List.Forall₂ Padded items texts) : parseList (",".intercalate texts) = items := by
  induction h with
  | nil => rfl
  | @cons item text items texts first rest ih =>
    obtain ⟨head, tail⟩ := List.forall_mem_cons.1 clean
    cases rest with
    | nil =>
      rw [String.intercalate_singleton]
      exact parseList_of_padded head first
    | cons =>
      rw [String.intercalate_cons_cons, parseList_append, parseList_of_padded head first, ih tail]
      rfl

theorem parseList_join {items : List String} (h : ∀ item ∈ items, Clean item) :
    parseList (",".intercalate items) = items :=
  parseList_padded h (List.forall₂_same.2 fun item _ => .refl item)

/-- Reading gives lists of clean items, and every such list. The items that were read, joined with
commas, with white space around them or not, are read as the same list again. -/
theorem parseList_normal :
    (∀ text, ∀ item ∈ parseList text, Clean item) ∧
    (∀ text texts, List.Forall₂ Padded (parseList text) texts →
      parseList (",".intercalate texts) = parseList text) ∧
    Set.range parseList = {items | ∀ item ∈ items, Clean item} ∧
    ∀ text, parseList (",".intercalate (parseList text)) = parseList text := by
  have clean (text : String) : ∀ item ∈ parseList text, Clean item :=
    fun _ => clean_of_mem_parseList
  refine ⟨clean, fun text texts => parseList_padded (clean text), ?_,
    fun text => parseList_join (clean text)⟩
  ext items
  constructor
  · rintro ⟨text, rfl⟩
    exact clean text
  · exact fun h => ⟨_, parseList_join h⟩

/-- Pieces of white space only vanish, inner white space stays. -/
theorem parseList_normal_spaced :
    List.Forall₂ Padded (parseList " Q ,\u3000,\tN  Y") ["Q\u2003", "\nN  Y"] ∧
      parseList (",".intercalate ["Q\u2003", "\nN  Y"]) = ["Q", "N  Y"] ∧
      Clean "N  Y" ∧ ∃ text, parseList text = ["Q", "N  Y"] := by
  obtain ⟨clean, padded, range, -⟩ := parseList_normal
  have read : parseList " Q ,\u3000,\tN  Y" = ["Q", "N  Y"] := by decide
  have around : List.Forall₂ Padded (parseList " Q ,\u3000,\tN  Y") ["Q\u2003", "\nN  Y"] := by
    rw [read]
    have space : Padded "Q" "Q\u2003" :=
      ⟨[], ['\u2003'], List.forall_mem_nil _, List.forall_mem_singleton.2 (by decide), rfl⟩
    have newline : Padded "N  Y" "\nN  Y" :=
      ⟨['\n'], [], List.forall_mem_singleton.2 (by decide), List.forall_mem_nil _, rfl⟩
    exact .cons space (.cons newline .nil)
  have inner : Clean "N  Y" := clean " Q ,\u3000,\tN  Y" _ (by rw [read]; decide)
  refine ⟨around, (padded _ _ around).trans read, inner, ?_⟩
  have reached : ["Q", "N  Y"] ∈ Set.range parseList := by
    rw [range, ← read]
    exact clean _
  exact reached

/-! ## Sets of items -/

namespace TextSet

theorem mem_ofList {xs : List String} {x : String} : x ∈ ofList xs ↔ x ∈ xs := by
  suffices ∀ s : TextSet, x ∈ xs.foldl insert s ↔ x ∈ s ∨ x ∈ xs by
    have none : x ∉ empty := List.not_mem_nil
    exact (this empty).trans (or_iff_right none)
  induction xs with
  | nil => simp
  | cons y ys ih =>
    intro s
    rw [List.foldl_cons, ih, mem_insert, List.mem_cons, or_comm (a := x = y), or_assoc]

theorem eq_of_mem_iff {s t : TextSet} (h : ∀ x, x ∈ s ↔ x ∈ t) : s = t := by
  obtain ⟨xs, hx⟩ := s
  obtain ⟨ys, hy⟩ := t
  have same : xs = ys := List.SortedLT.eq_of_mem_iff hx.sortedLT hy.sortedLT h
  subst same
  rfl

end TextSet

end MarketFeed
