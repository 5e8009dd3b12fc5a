/-
  Flowprint.Proofs.Feature.WeightFile
  ────────────────────────────────
  Files of weights, written and read back.

  A row of such a file is a name of an identity, a blank and a weight.  Neither the name nor the weight
  has a blank in it, so that the row falls into these two words again.  Weights that are read have to
  be finite; a table in memory may hold others, and then the first of their rows is where reading ends.

  Main statements:

      readEntry_text      a row is read as its identity and its weight, if that is finite
      readLines_rows      rows are read one after the other
      round_trip          a saved table is loaded, or refused at its first weight that is not finite
-/
import Flowprint.Feature.WeightFile
import Flowprint.Proofs.Decimal.RoundTrip
import Flowprint.Proofs.Disk
import Flowprint.Proofs.Feature.Identity
import Flowprint.Proofs.Map

namespace Flowprint.Weights

open Std

/-! ## §1. Rows. -/

/-- A name of an identity, and a weight. -/
structure Row where
  name : List Char
  id : FeatureId
  weight : Float
  /-- The name is read as the identity. -/
  reads : FeatureId.read (.ofList name) = .ok id
  /-- The name is one word, and begins no remark. -/
  word : ∀ c ∈ name, Text.isBlank c = false
  head : ∃ c rest, name = c :: rest ∧ c ≠ '#'

namespace Row

/-- A row as it is read. -/
def entry (row : Row) : FeatureId × Float :=
  (row.id, row.weight)

/-- A row as it is written, but for the line feed. -/
def text (row : Row) : List Char :=
  row.name ++ ' ' :: (Decimal.plain row.weight).toList

/-- A row as a line. -/
def line (row : Row) : List Char :=
  row.text ++ ['\n']

/-- The row of an entry of a table. -/
def ofEntry (entry : FeatureId × Float) : Row where
  name := entry.1.digits
  id := entry.1
  weight := entry.2
  reads := by
    rw [← FeatureId.toList_text, String.ofList_toList]
    exact FeatureId.read_text entry.1
  word c h := by
    have hall : ∀ d < 16, Text.isBlank (Text.Radix.hexDigit d) = false := by decide
    obtain ⟨d, hd, rfl⟩ := FeatureId.mem_digits h
    exact hall d hd
  head := by
    have hall : ∀ d < 16, Text.Radix.hexDigit d ≠ '#' := by decide
    have hlength := FeatureId.length_digits entry.1
    cases hdigits : entry.1.digits with
    | nil =>
      rw [hdigits] at hlength
      exact absurd hlength (by decide)
    | cons c rest =>
      obtain ⟨d, hd, rfl⟩ : ∃ d < 16, c = Text.Radix.hexDigit d :=
        FeatureId.mem_digits (by rw [hdigits]; exact List.mem_cons_self)
      exact ⟨_, rest, rfl, hall d hd⟩

variable {row : Row}

/-- A row begins and ends with what is no blank. -/
theorem text_eq_cons_concat (row : Row) : ∃ c middle d, row.text = c :: (middle ++ [d])
    ∧ Text.isBlank c = false ∧ Text.isBlank d = false ∧ c ≠ '#' := by
  obtain ⟨c, rest, hname, hremark⟩ := row.head
  have hc : Text.isBlank c = false := row.word c (by rw [hname]; exact List.mem_cons_self)
  rcases List.eq_nil_or_concat (Decimal.plain row.weight).toList with hnil | ⟨front, d, hweight⟩
  · exact absurd hnil (Decimal.plain_ne_nil row.weight)
  · rw [List.concat_eq_append] at hweight
    have hd : Text.isBlank d = false := Decimal.isBlank_plain (by rw [hweight]; simp)
    refine ⟨c, rest ++ ' ' :: front, d, ?_, hc, hd, hremark⟩
    rw [text, hname, hweight, List.cons_append, List.append_assoc, List.cons_append]

theorem trim_text (row : Row) : Text.trim row.text = row.text := by
  obtain ⟨c, middle, d, heq, hc, hd, -⟩ := row.text_eq_cons_concat
  rw [heq]
  exact Text.trim_eq_self hc hd

theorem dropReturn_text (row : Row) : Text.dropReturn row.text = row.text := by
  obtain ⟨c, middle, d, heq, -, hd, -⟩ := row.text_eq_cons_concat
  have hreturn : d ≠ '\r' := by
    rintro rfl
    exact absurd hd (by decide)
  rw [heq, Text.dropReturn, ← List.cons_append, List.getLast?_concat,
    if_neg fun h => hreturn (Option.some.inj h)]

theorem isRemark_text (row : Row) : isRemark row.text = false := by
  obtain ⟨c, middle, d, heq, -, -, hremark⟩ := row.text_eq_cons_concat
  rw [heq]
  simp [isRemark, hremark]

theorem not_mem_text (row : Row) : '\n' ∉ row.text := by
  have hfeed : Text.isBlank '\n' ≠ false := by decide
  intro hmem
  rcases List.mem_append.mp hmem with hname | hrest
  · exact hfeed (row.word _ hname)
  · rcases List.mem_cons.mp hrest with heq | hweight
    · exact absurd heq (by decide)
    · exact hfeed (Decimal.isBlank_plain hweight)

/-- A row has two words. -/
theorem words_text (row : Row) :
    Text.words row.text = [row.name, (Decimal.plain row.weight).toList] := by
  have hname : row.name.isEmpty = false := by
    obtain ⟨c, rest, heq, -⟩ := row.head
    rw [heq]
    rfl
  have hweight : (Decimal.plain row.weight).toList.isEmpty = false :=
    List.isEmpty_eq_false_iff.mpr (Decimal.plain_ne_nil row.weight)
  have hpieces : Text.pieces Text.isBlank row.text
      = [row.name, (Decimal.plain row.weight).toList] := by
    rw [text, Text.pieces_append row.word (by decide),
      Text.pieces_eq_self fun c hc => Decimal.isBlank_plain hc]
  rw [Text.words, hpieces]
  simp [hname, hweight]

/-- A row is read as its identity and its weight, if that is finite. -/
theorem readEntry_text (h : row.weight.isFinite = true) : readEntry row.text = .ok row.entry := by
  simp only [readEntry, words_text, row.reads, Decimal.read?_plain h, h, if_true]
  rfl

/-- A row is refused if its weight is not finite. -/
theorem readEntry_not_finite (h : row.weight.isFinite = false) :
    readEntry row.text = .error .notFinite := by
  obtain ⟨y, hread, hspecial⟩ := Decimal.read?_plain_not_finite h
  simp only [readEntry, words_text, row.reads, hread, hspecial]
  rfl

end Row

/-! ## §2. Rows in a row. -/

/-- A row is the first line of a text that begins with it. -/
theorem lines_line_append (row : Row) (rest : List Char) :
    Text.lines (row.line ++ rest) = row.text :: Text.lines rest := by
  rw [Row.line, List.append_assoc, List.singleton_append, Text.lines_append row.not_mem_text,
    row.dropReturn_text]

theorem lines_rows (rows : List Row) :
    Text.lines (rows.flatMap Row.line) = rows.map Row.text := by
  induction rows with
  | nil => rfl
  | cons row rows ih => rw [List.flatMap_cons, lines_line_append, ih, List.map_cons]

/-- Rows at the beginning of a text are read one after the other. -/
theorem readLines_rows {rows : List Row} (h : ∀ row ∈ rows, row.weight.isFinite = true)
    (rest : List Char) (number : Nat) (table : Weights) :
    readLines number (Text.lines (rows.flatMap Row.line ++ rest)) table
      = readLines (number + rows.length) (Text.lines rest)
        (table.insertMany (rows.map Row.entry)) := by
  induction rows generalizing number table with
  | nil => rw [List.map_nil, ExtTreeMap.insertMany_nil]; rfl
  | cons row rows ih =>
    have hentry : readEntry row.text = .ok (row.id, row.weight) :=
      row.readEntry_text (h row List.mem_cons_self)
    rw [List.flatMap_cons, List.append_assoc, lines_line_append, readLines,
      row.trim_text, row.isRemark_text, if_neg Bool.false_ne_true, hentry]
    dsimp only
    rw [ih (fun row hmem => h row (List.mem_cons_of_mem _ hmem)), List.map_cons, Row.entry,
      ExtTreeMap.insertMany_cons, List.length_cons, Nat.add_assoc, Nat.add_comm 1]

/-- A row with a weight that is not finite is refused, with its line. -/
theorem readLines_not_finite {row : Row} (h : row.weight.isFinite = false) (rest : List Char)
    (number : Nat) (table : Weights) :
    readLines number (Text.lines (row.line ++ rest)) table
      = .error ⟨number, .ofList row.text, .notFinite⟩ := by
  rw [lines_line_append, readLines, row.trim_text, row.isRemark_text, if_neg Bool.false_ne_true,
    row.readEntry_not_finite h]

/-! ## §3. Tables in files. -/

theorem text_ofEntry (id : FeatureId) (weight : Float) :
    (Row.ofEntry (id, weight)).text = id.text.toList ++ ' ' :: (Decimal.plain weight).toList := by
  rw [FeatureId.toList_text]
  rfl

theorem toList_entryLine (entry : FeatureId × Float) :
    (entryLine entry).toList = (Row.ofEntry entry).line := by
  have hid : toString entry.1.text = entry.1.text := rfl
  have hweight : toString (Decimal.plain entry.2) = Decimal.plain entry.2 := rfl
  have hblank : (toString " ").toList = [' '] := by decide
  have hfeed : (toString "\n").toList = ['\n'] := by decide
  unfold entryLine
  rw [String.toList_append, String.toList_append, String.toList_append, hid, hweight, hblank, hfeed,
    Row.line, text_ofEntry, List.append_assoc entry.1.text.toList, List.singleton_append]

theorem toList_render (table : Weights) :
    table.render.toList = (table.toList.map Row.ofEntry).flatMap Row.line := by
  rw [render, String.toList_join, List.flatMap_map, List.flatMap_map]
  exact congrArg (List.flatMap · table.toList) (funext toList_entryLine)

theorem ofEntries_eq (entries : List (FeatureId × Float)) :
    ofEntries entries = (∅ : Weights).insertMany entries :=
  ExtTreeMap.insertMany_list_eq_foldl.symm

theorem find?_ofEntries {entries : List (FeatureId × Float)} (h : Map.Agree entries)
    {id : FeatureId} {weight : Float} :
    (ofEntries entries).find? id = some weight ↔ (id, weight) ∈ entries := by
  rw [ofEntries_eq]
  exact Map.getElem?_insertMany_empty h

/-- A table with finite weights only. -/
def Finite (table : Weights) : Prop :=
  ∀ id weight, table.find? id = some weight → weight.isFinite = true

/-- The number of an identity among others, from one. -/
def rank (id : FeatureId) (ids : List FeatureId) : Nat :=
  ids.countP fun other => other.ule id

/-- The smallest identity of a table with a weight that is not finite. -/
structure FirstSpecial (table : Weights) (id : FeatureId) (weight : Float) : Prop where
  there : table.find? id = some weight
  special : weight.isFinite = false
  first : ∀ other found, table.find? other = some found → found.isFinite = false → id ≤ other

section Tables

variable {table : Weights}

theorem mem_toList {id : FeatureId} {weight : Float} :
    (id, weight) ∈ table.toList ↔ table.find? id = some weight :=
  ExtTreeMap.mem_toList_iff_getElem?_eq_some

/-- Identities are listed in ascending order. -/
theorem ordered_toList (table : Weights) : table.toList.Pairwise fun a b => a.1 < b.1 := by
  refine List.Pairwise.imp (fun hless => ?_) ExtTreeMap.ordered_keys_toList
  exact compareOfLessAndEq_eq_lt.mp hless

/-- A table with finite weights is read back. -/
theorem parse_render (hfinite : table.Finite) : parse table.render = .ok table := by
  have hrows : ∀ row ∈ table.toList.map Row.ofEntry, row.weight.isFinite = true := by
    intro row hmem
    obtain ⟨entry, hentry, rfl⟩ := List.mem_map.mp hmem
    exact hfinite entry.1 entry.2 (mem_toList.mp hentry)
  have hread := readLines_rows hrows [] 1 ∅
  have hentries : (table.toList.map Row.ofEntry).map Row.entry = table.toList := by
    rw [List.map_map]
    exact List.map_id _
  rw [List.append_nil, hentries, Map.insertMany_toList] at hread
  rw [parse, toList_render, hread]
  rfl

/-- The number of an identity in an ascending list is its place. -/
theorem rank_append {id : FeatureId} {front back : List FeatureId}
    (hfront : ∀ other ∈ front, other < id) (hback : ∀ other ∈ back, id < other) :
    rank id (front ++ id :: back) = front.length + 1 := by
  have hall : front.countP (fun other => other.ule id) = front.length :=
    List.countP_eq_length.mpr fun other hmem =>
      BitVec.ule_iff_le.mpr (BitVec.le_of_lt (hfront other hmem))
  have hnone : back.countP (fun other => other.ule id) = 0 :=
    List.countP_eq_zero.mpr fun other hmem hle =>
      BitVec.not_le.mpr (hback other hmem) (BitVec.ule_iff_le.mp hle)
  have hself : id.ule id = true := BitVec.ule_iff_le.mpr (BitVec.le_refl id)
  rw [rank, List.countP_append, List.countP_cons, hall, hnone, hself]
  rfl

/-- In a table with a weight that is not finite, the rows in front of the first such weight are as many
as its rank says, and finite. -/
theorem split_firstSpecial {id : FeatureId} {weight : Float} (h : table.FirstSpecial id weight) :
    ∃ front back, table.toList = front ++ (id, weight) :: back
      ∧ rank id (table.toList.map Prod.fst) = front.length + 1
      ∧ ∀ entry ∈ front, entry.2.isFinite = true := by
  obtain ⟨front, back, hlist⟩ := List.append_of_mem (mem_toList.mpr h.there)
  have hordered := ordered_toList table
  rw [hlist, List.pairwise_append, List.pairwise_cons] at hordered
  obtain ⟨-, ⟨hback, -⟩, hfront⟩ := hordered
  have hless : ∀ entry ∈ front, entry.1 < id :=
    fun entry hmem => hfront entry hmem _ List.mem_cons_self
  refine ⟨front, back, hlist, ?_, fun entry hmem => ?_⟩
  · rw [hlist, List.map_append, List.map_cons,
      rank_append (List.forall_mem_map.mpr hless) (List.forall_mem_map.mpr hback), List.length_map]
  · refine Bool.of_not_eq_false fun hspecial => ?_
    have hthere : table.find? entry.1 = some entry.2 :=
      mem_toList.mp (by rw [hlist]; exact List.mem_append_left _ hmem)
    exact absurd (hless entry hmem)
      (BitVec.not_lt.mpr (h.first entry.1 entry.2 hthere hspecial))

/-- A table with a weight that is not finite is refused at the first such weight. -/
theorem parse_render_special {id : FeatureId} {weight : Float} (h : table.FirstSpecial id weight) :
    parse table.render
      = .error ⟨rank id (table.toList.map Prod.fst), .ofList (Row.ofEntry (id, weight)).text,
        .notFinite⟩ := by
  obtain ⟨front, back, hlist, hrank, hfinite⟩ := split_firstSpecial h
  have hrows : ∀ row ∈ front.map Row.ofEntry, row.weight.isFinite = true := by
    intro row hmem
    obtain ⟨entry, hentry, rfl⟩ := List.mem_map.mp hmem
    exact hfinite entry hentry
  have hspecial : (Row.ofEntry (id, weight)).weight.isFinite = false := h.special
  rw [hrank, parse, toList_render, hlist, List.map_append, List.flatMap_append, List.map_cons,
    List.flatMap_cons, readLines_rows hrows, readLines_not_finite hspecial, List.length_map,
    Nat.add_comm]

/-- A table has a first weight that is not finite, if it has any. -/
theorem exists_firstSpecial (h : ¬ table.Finite) : ∃ id weight, table.FirstSpecial id weight := by
  cases hfind : table.toList.find? fun entry => ! entry.2.isFinite with
  | none =>
    refine absurd (fun id weight hthere => ?_) h
    simpa using List.find?_eq_none.mp hfind _ (mem_toList.mpr hthere)
  | some entry =>
    obtain ⟨hspecial, front, back, hlist, hfront⟩ := List.find?_eq_some_iff_append.mp hfind
    have hthere : table.find? entry.1 = some entry.2 := mem_toList.mp (by rw [hlist]; simp)
    refine ⟨entry.1, entry.2, hthere, by simpa using hspecial, fun other found hfound hnot => ?_⟩
    have hordered := ordered_toList table
    have hmem := mem_toList.mpr hfound
    rw [hlist, List.mem_append, List.mem_cons] at hmem
    rw [hlist, List.pairwise_append, List.pairwise_cons] at hordered
    rcases hmem with hbefore | rfl | hbehind
    · exact absurd (hfront _ hbefore) (by simp [hnot])
    · exact BitVec.le_refl _
    · exact BitVec.le_of_lt (hordered.2.1.1 _ hbehind)

/-- The text of a table that was saved is found where it was saved. -/
theorem readText_save {path : String} {disk after : Disk} (h : table.save path disk = .ok after) :
    after.readText path = .ok table.render := by
  rw [Disk.readText, Disk.readBytes, Disk.node_write h]
  dsimp only
  rw [Text.ofBytes?_bytesOf]

/-- What it means that a table is written to a file and read back. -/
structure RoundTrip (table : Weights) (path : String) (after : Disk) : Prop where
  /-- The file has one line for each entry, identities ascending. -/
  lines : ∃ text, after.readText path = .ok text
    ∧ Text.lines text.toList = table.toList.map fun (id, weight) =>
      id.text.toList ++ ' ' :: (Decimal.plain weight).toList
  ascending : (table.toList.map Prod.fst).Pairwise (· < ·)
  listed : ∀ id weight, (id, weight) ∈ table.toList ↔ table.find? id = some weight
  /-- Loading succeeds only if all weights are finite, and gives the table then. -/
  loads : (∃ found, load path after = .ok found) ↔ table.Finite
  same : table.Finite → load path after = .ok table
  /-- Otherwise it fails at the smallest identity with a weight that is not. -/
  refused : ∀ {id weight}, table.FirstSpecial id weight →
    load path after = .error (.malformed ⟨rank id (table.toList.map Prod.fst),
      .ofList (id.text.toList ++ ' ' :: (Decimal.plain weight).toList), .notFinite⟩)
  first : ¬ table.Finite → ∃ id weight, table.FirstSpecial id weight

/-- A saved table is loaded with the same weights, or refused at its first weight that is not finite.
The text of a table does not depend on the order in which its entries were inserted. -/
theorem round_trip {path : String} {disk after : Disk} (h : table.save path disk = .ok after) :
    RoundTrip table path after
      ∧ ∀ entries others : List (FeatureId × Float), entries.Perm others →
        (entries.map Prod.fst).Nodup →
        (ofEntries entries).render = (ofEntries others).render := by
  have htext := readText_save h
  have hsame : table.Finite → load path after = .ok table := by
    intro hfinite
    simp only [load, htext, parse_render hfinite]
  have hrefused : ∀ {id weight}, table.FirstSpecial id weight →
      load path after = .error (.malformed ⟨rank id (table.toList.map Prod.fst),
        .ofList (id.text.toList ++ ' ' :: (Decimal.plain weight).toList), .notFinite⟩) := by
    intro id weight hfirst
    simp only [load, htext, parse_render_special hfirst, text_ofEntry]
  refine ⟨⟨⟨_, htext, ?_⟩, ?_, fun _ _ => mem_toList, ⟨fun hloads => ?_, fun hfinite => ?_⟩, hsame,
    hrefused, exists_firstSpecial⟩, fun entries others hperm hnodup => ?_⟩
  · rw [toList_render, lines_rows, List.map_map]
    exact List.map_congr_left fun (id, weight) _ => text_ofEntry id weight
  · exact List.pairwise_map.mpr (ordered_toList table)
  · obtain ⟨found, hload⟩ := hloads
    refine Classical.byContradiction fun hnot => ?_
    obtain ⟨id, weight, hfirst⟩ := exists_firstSpecial hnot
    exact absurd (hload.symm.trans (hrefused hfirst)) (by simp)
  · exact ⟨table, hsame hfinite⟩
  · rw [ofEntries_eq, ofEntries_eq,
      Map.insertMany_congr (Map.Agree.of_nodup hnodup) fun entry => hperm.mem_iff]

/-- Two weights, the greater identity first. -/
def twoWeights : Weights := ofEntries [(7, 0.1), (2, -1.5)]

theorem round_trip_two :
    let after := ({} : Disk).put ["w"] (.file (Text.bytesOf twoWeights.render))
    twoWeights.save "w" {} = .ok after ∧ load "w" after = .ok twoWeights := by
  intro after
  have hthere : ∀ {id weight}, twoWeights.find? id = some weight →
      (id, weight) ∈ [((7 : FeatureId), (0.1 : Float)), (2, -1.5)] :=
    fun h => (find?_ofEntries (Map.Agree.of_nodup (by decide))).mp h
  have hweights : ∀ entry ∈ [((7 : FeatureId), (0.1 : Float)), (2, -1.5)],
      entry.2.isFinite = true := by decide +kernel
  have hfinite : twoWeights.Finite := fun id weight h => hweights (id, weight) (hthere h)
  have hlocate : ({} : Disk).locate "w" = .ok ["w"] := by
    have hvalid : "w".contains '\x00' = false := by simp
    rw [Disk.locate, hvalid]
    rfl
  have hsave : twoWeights.save "w" {} = .ok after :=
    Disk.write_eq_ok.mpr ⟨["w"], hlocate, by decide, rfl⟩
  have htrip : RoundTrip twoWeights "w" after := (round_trip hsave).1
  exact ⟨hsave, htrip.same hfinite⟩

end Tables

end Flowprint.Weights
