/-
  Flowprint.Proofs.Feature.Triples
  ────────────────────────────────
  When three mnemonics in a row are a feature of their own.

  The key of three mnemonics is the three texts with a null character between one and the next.  So two
  keys are the same if these texts are, and a key says which mnemonics it is made of exactly if no null
  character is in them: otherwise the text can be cut in another place.  A graph has as many features of
  this kind as there are texts, which is as many as there are triples if no two share their text.

  Main statements:

      key_eq_iff              triples with one text have one key
      key_unique_iff          a key belongs to one triple if no null character is in the triple
      length_first            each key counts once
      triples_told_apart      what the keys say, and how many features there are
-/
import Flowprint.Proofs.Feature.Families
import Flowprint.Proofs.Graph.Exchange
import Flowprint.Text.Cut

namespace Flowprint

open Std

/-! ## §1. Bytes of texts. -/

namespace Text

theorem bytesOf_append (s t : String) : bytesOf (s ++ t) = bytesOf s ++ bytesOf t := by
  have hbytes : ∀ s : String, bytesOf s = s.toByteArray.data.toList := by
    intro s
    rw [bytesOf, ByteArray.toList, toListLoop_eq]
    rfl
  rw [hbytes, hbytes, hbytes, String.toByteArray_append, ByteArray.data_append,
    Array.toList_append]

theorem bytesOf_inj {s t : String} : bytesOf s = bytesOf t ↔ s = t := by
  constructor
  · intro h
    rw [← Option.some_inj, ← ofBytes?_bytesOf, ← ofBytes?_bytesOf, h]
  · rintro rfl
    rfl

end Text

/-! ## §2. Triples and their keys. -/

/-- Three mnemonics. -/
structure Triple where
  first : String
  second : String
  third : String
  deriving Repr, DecidableEq

namespace Triple

/-- The key of three mnemonics. -/
def key (t : Triple) : FeatureKey :=
  tupleKey t.first t.second t.third

/-- The mnemonics with a null character between one and the next. -/
def text (t : Triple) : String :=
  t.first ++ "\x00" ++ t.second ++ "\x00" ++ t.third

/-- No null character is in the mnemonics. -/
def Plain (t : Triple) : Prop :=
  '\x00' ∉ t.first.toList ∧ '\x00' ∉ t.second.toList ∧ '\x00' ∉ t.third.toList

section Keys

variable {t u : Triple}

theorem key_eq (t : Triple) :
    t.key = FeatureKind.mnemonicTuple.keyByte :: Text.bytesOf t.text := by
  have hnull : Text.bytesOf "\x00" = [0] := by decide +kernel
  simp only [key, tupleKey, text, Text.bytesOf_append, hnull, List.cons_append, List.append_assoc,
    List.nil_append]

/-- Triples with one text have one key. -/
theorem key_eq_iff : t.key = u.key ↔ t.text = u.text := by
  rw [key_eq, key_eq, List.cons.injEq, Text.bytesOf_inj, and_iff_right rfl]

theorem toList_text (t : Triple) :
    t.text.toList
      = t.first.toList ++ '\x00' :: (t.second.toList ++ '\x00' :: t.third.toList) := by
  have hnull : "\x00".toList = ['\x00'] := by decide
  simp only [text, String.toList_append, hnull, List.append_assoc, List.cons_append,
    List.nil_append]

/-- A text in which there are no more null characters than two is cut at these. -/
theorem eq_of_text (h : t.Plain) (htext : u.text = t.text) : u = t := by
  obtain ⟨hfirst, hsecond, hthird⟩ := h
  have hchars := congrArg String.toList htext
  rw [toList_text, toList_text] at hchars
  -- the other triple has no null characters to spare
  have hnull : '\x00' ∉ u.first.toList ∧ '\x00' ∉ u.second.toList := by
    have hcount := congrArg (List.count '\x00') hchars
    simp only [List.count_append, List.count_cons_self, List.count_eq_zero_of_not_mem hfirst,
      List.count_eq_zero_of_not_mem hsecond, List.count_eq_zero_of_not_mem hthird] at hcount
    exact ⟨List.count_eq_zero.mp (by omega), List.count_eq_zero.mp (by omega)⟩
  have hcut := congrArg (Text.cutFirst? '\x00') hchars
  rw [Text.cutFirst?_append hnull.1, Text.cutFirst?_append hfirst] at hcut
  obtain ⟨hone, hrest⟩ := Prod.mk.inj (Option.some.inj hcut)
  have hcut := congrArg (Text.cutFirst? '\x00') hrest
  rw [Text.cutFirst?_append hnull.2, Text.cutFirst?_append hsecond] at hcut
  obtain ⟨htwo, hthree⟩ := Prod.mk.inj (Option.some.inj hcut)
  obtain ⟨a, b, c⟩ := u
  obtain rfl := String.toList_inj.mp hone
  obtain rfl := String.toList_inj.mp htwo
  obtain rfl := String.toList_inj.mp hthree
  rfl

/-- A text with a null character is in front of and behind it. -/
theorem exists_cut {s : String} (h : '\x00' ∈ s.toList) : ∃ x y : String, s = x ++ "\x00" ++ y := by
  obtain ⟨x, y, hs⟩ := List.append_of_mem h
  refine ⟨.ofList x, .ofList y, String.toList_inj.mp ?_⟩
  have hnull : "\x00".toList = ['\x00'] := by decide
  rw [hs, String.toList_append, String.toList_append, hnull, String.toList_ofList,
    String.toList_ofList, List.append_assoc, List.singleton_append]

theorem ne_longer (x y : String) : x ≠ x ++ "\x00" ++ y := by
  intro h
  have hlength := congrArg String.length h
  have hnull : "\x00".length = 1 := by decide
  rw [String.length_append, String.length_append, hnull] at hlength
  omega

/-- A key belongs to one triple exactly if no null character is in the triple. -/
theorem key_unique_iff : (∀ u : Triple, u.key = t.key → u = t) ↔ t.Plain := by
  constructor
  · intro hunique
    obtain ⟨a, b, c⟩ := t
    -- a null character is as good a place for a cut as the end of a mnemonic
    refine ⟨fun hnull => ?_, fun hnull => ?_, fun hnull => ?_⟩
    · obtain ⟨x, y, rfl⟩ := exists_cut hnull
      have hsame := hunique ⟨x, y, b ++ "\x00" ++ c⟩
        (key_eq_iff.mpr (by simp only [text, String.append_assoc]))
      exact ne_longer x y (congrArg first hsame)
    · obtain ⟨x, y, rfl⟩ := exists_cut hnull
      have hsame := hunique ⟨a, x, y ++ "\x00" ++ c⟩
        (key_eq_iff.mpr (by simp only [text, String.append_assoc]))
      exact ne_longer x y (congrArg second hsame)
    · obtain ⟨x, y, rfl⟩ := exists_cut hnull
      have hsame := hunique ⟨a ++ "\x00" ++ b, x, y⟩
        (key_eq_iff.mpr (by simp only [text, String.append_assoc]))
      exact ne_longer a b (congrArg first hsame).symm
  · intro hplain u hkey
    exact eq_of_text hplain (key_eq_iff.mp hkey)

end Keys

/-- The triples of mnemonics in a row: each mnemonic with the two that follow it. -/
def inRow (names : List String) : List Triple :=
  (names.zip ((names.drop 1).zip (names.drop 2))).map fun row => ⟨row.1, row.2.1, row.2.2⟩

theorem map_key_inRow (names : List String) : (inRow names).map key = tupleKeys names := by
  fun_induction tupleKeys names with
  | case1 a b c rest ih =>
    rw [← ih]
    rfl
  | case2 names hshort =>
    rcases names with _ | ⟨a, _ | ⟨b, _ | ⟨c, rest⟩⟩⟩
    · rfl
    · rfl
    · rfl
    · exact (hshort a b c rest rfl).elim

theorem plain_of_mem {names : List String} (h : ∀ name ∈ names, '\x00' ∉ name.toList) :
    ∀ t ∈ inRow names, t.Plain := by
  intro t ht
  obtain ⟨⟨a, b, c⟩, hrow, rfl⟩ := List.mem_map.mp ht
  obtain ⟨ha, hrest⟩ := List.of_mem_zip hrow
  obtain ⟨hb, hc⟩ := List.of_mem_zip hrest
  exact ⟨h a ha, h b (List.mem_of_mem_drop hb), h c (List.mem_of_mem_drop hc)⟩

end Triple

/-- The triples of mnemonics in a row in a graph. -/
def Flowgraph.triples (g : Flowgraph) : List Triple :=
  Triple.inRow g.mnemonics

/-! ## §3. Features. -/

namespace Extractor

/-- The features of a graph that are three mnemonics in a row. -/
def mnemonicFeatures (extractor : Extractor) (g : Flowgraph) : List Feature :=
  (extractor.extract g).filter (·.kind = .mnemonicTuple)

section Features

variable {kind : FeatureKind} {extractor : Extractor} {g : Flowgraph}

/-- Of the occurrences that come up for the first time no two have one key. -/
theorem nodup_first (keys : List (FeatureKind × FeatureKey)) :
    ((select .once (numbered keys)).map Occurrence.key).Nodup := by
  have hascending := (numbered_ascending keys).sublist
    (List.filter_sublist (p := fun o : Occurrence => decide (o.earlier = 0)))
  refine List.pairwise_map.mpr (hascending.imp_of_mem fun {a b} ha hb hlater hsame => ?_)
  have hnone : b.earlier = 0 := of_decide_eq_true (List.mem_filter.mp hb).2
  have hlt := hlater hsame
  omega

theorem mem_first {keys : List FeatureKey} {key : FeatureKey} :
    key ∈ (select .once (numbered (keys.map (kind, ·)))).map Occurrence.key ↔ key ∈ keys := by
  rw [List.mem_map]
  constructor
  · rintro ⟨⟨k, x, n⟩, ho, rfl⟩
    have hcount := (mem_numbered.mp (List.mem_of_mem_filter ho)).2
    exact List.count_pos_iff.mp (Nat.zero_lt_of_lt hcount)
  · intro hkey
    refine ⟨⟨kind, key, 0⟩, List.mem_filter.mpr ⟨?_, rfl⟩, rfl⟩
    exact mem_numbered.mpr ⟨rfl, List.count_pos_iff.mpr hkey⟩

/-- Each key counts once. -/
theorem length_first (keys : List FeatureKey) :
    (select .once (numbered (keys.map (kind, ·)))).length = keys.toFinset.card := by
  have hsame : ((select .once (numbered (keys.map (kind, ·)))).map Occurrence.key).toFinset
      = keys.toFinset := by
    ext key
    rw [List.mem_toFinset, List.mem_toFinset, mem_first]
  rw [← hsame, List.toFinset_card_of_nodup (nodup_first _), List.length_map]

/-- The features with mnemonics are those that are extracted without graphlets. -/
theorem mnemonicFeatures_eq (extractor : Extractor) (g : Flowgraph) :
    extractor.mnemonicFeatures g = (extractor.without .graphlet).extract g := by
  rw [← filter_extract, mnemonicFeatures]
  refine List.filter_congr fun feature _ => ?_
  cases feature.kind <;> rfl

/-- Without repeats the features with mnemonics are the triples that come up for the first time. -/
theorem mnemonicFeatures_once (hmnemonics : extractor.mnemonics = true)
    (honce : extractor.multiplicity = .once) (g : Flowgraph) :
    extractor.mnemonicFeatures g
      = (select .once (numbered ((g.triples.map Triple.key).map
          (FeatureKind.mnemonicTuple, ·)))).map Occurrence.feature := by
  have hkeys : (extractor.without .graphlet).keys g
      = (g.triples.map Triple.key).map (FeatureKind.mnemonicTuple, ·) := by
    rw [keys_without_graphlets, if_pos hmnemonics, Flowgraph.triples, Triple.map_key_inRow]
  have hpolicy : (extractor.without .graphlet).multiplicity = .once := honce
  rw [mnemonicFeatures_eq, extract, number_empty, hkeys, hpolicy]

/-- There are as many features with mnemonics as texts of triples. -/
theorem length_mnemonicFeatures (hmnemonics : extractor.mnemonics = true)
    (honce : extractor.multiplicity = .once) (g : Flowgraph) :
    (extractor.mnemonicFeatures g).length = (g.triples.map Triple.text).toFinset.card := by
  -- a key is a text behind the byte of its kind
  have hkeys : g.triples.map Triple.key = (g.triples.map Triple.text).map
      fun text => FeatureKind.mnemonicTuple.keyByte :: Text.bytesOf text := by
    rw [List.map_map]
    exact List.map_congr_left fun t _ => t.key_eq
  have hinjective : Function.Injective
      fun text => FeatureKind.mnemonicTuple.keyByte :: Text.bytesOf text :=
    fun _ _ heq => Text.bytesOf_inj.mp (List.cons.inj heq).2
  rw [mnemonicFeatures_once hmnemonics honce, List.length_map, length_first, hkeys,
    List.card_toFinset, List.card_toFinset, List.dedup_map_of_injective hinjective, List.length_map]

/-- Without collisions no two features with mnemonics have one identity. -/
theorem nodup_mnemonicFeatures (hmnemonics : extractor.mnemonics = true)
    (honce : extractor.multiplicity = .once)
    (hfree : ∀ t ∈ g.triples, ∀ u ∈ g.triples,
      FeatureId.ofKey t.key 0 = FeatureId.ofKey u.key 0 → t.key = u.key) :
    ((extractor.mnemonicFeatures g).map Feature.id).Nodup := by
  rw [mnemonicFeatures_once hmnemonics honce, List.map_map]
  refine List.pairwise_map.mpr ((List.pairwise_map.mp (nodup_first _)).imp_of_mem ?_)
  intro a b ha hb hne hsame
  have hid : ∀ o ∈ select .once (numbered ((g.triples.map Triple.key).map
      (FeatureKind.mnemonicTuple, ·))), ∃ t ∈ g.triples, t.key = o.key
        ∧ o.feature.id = FeatureId.ofKey t.key 0 := by
    intro o ho
    obtain ⟨t, ht, hkey⟩ := List.mem_map.mp (mem_first.mp (List.mem_map_of_mem ho))
    have hfirst : o.earlier = 0 := of_decide_eq_true (List.mem_filter.mp ho).2
    refine ⟨t, ht, hkey, ?_⟩
    rw [hkey, Occurrence.feature, hfirst]
    rfl
  obtain ⟨t, ht, hta, hida⟩ := hid a ha
  obtain ⟨u, hu, hub, hidb⟩ := hid b hb
  refine hne ?_
  rw [← hta, ← hub]
  refine hfree t ht u hu ?_
  rw [← hida, ← hidb]
  exact hsame

end Features

/-- Triples have one key exactly if they have one text, and a key belongs to one triple exactly if that
has no null character in it.  Without repeats a graph has as many features with mnemonics as it has texts
of triples, each with an identity of its own unless digests collide.  That is as many as it has triples
exactly if no two of them have one text, as is the case if no mnemonic has a null character in it. -/
theorem triples_told_apart (extractor : Extractor) (g : Flowgraph)
    (hmnemonics : extractor.mnemonics = true) (honce : extractor.multiplicity = .once) :
    (∀ t u : Triple, t.key = u.key ↔ t.text = u.text)
    ∧ (∀ t : Triple, (∀ u : Triple, u.key = t.key → u = t) ↔ t.Plain)
    ∧ (extractor.mnemonicFeatures g).length = (g.triples.map Triple.text).toFinset.card
    ∧ ((extractor.mnemonicFeatures g).length = g.triples.toFinset.card
        ↔ ∀ t ∈ g.triples, ∀ u ∈ g.triples, t.text = u.text → t = u)
    ∧ ((∀ name ∈ g.mnemonics, '\x00' ∉ name.toList) →
        (extractor.mnemonicFeatures g).length = g.triples.toFinset.card)
    ∧ ((∀ t ∈ g.triples, ∀ u ∈ g.triples,
          FeatureId.ofKey t.key 0 = FeatureId.ofKey u.key 0 → t.key = u.key) →
        ((extractor.mnemonicFeatures g).map Feature.id).Nodup) := by
  have hlength := length_mnemonicFeatures hmnemonics honce g
  have himage : (g.triples.map Triple.text).toFinset = g.triples.toFinset.image Triple.text := by
    ext text
    simp
  have hcount : (extractor.mnemonicFeatures g).length = g.triples.toFinset.card
      ↔ ∀ t ∈ g.triples, ∀ u ∈ g.triples, t.text = u.text → t = u := by
    rw [hlength, himage, Finset.card_image_iff]
    simp [Set.InjOn]
  refine ⟨fun t u => Triple.key_eq_iff, fun t => Triple.key_unique_iff, hlength, hcount,
    fun hplain => hcount.mpr ?_, nodup_mnemonicFeatures hmnemonics honce⟩
  intro t ht u hu htext
  exact Triple.eq_of_text (Triple.plain_of_mem hplain u hu) htext

/-- A block with mnemonics in a row. -/
def listing (names : List String) : Flowgraph :=
  { (Flowgraph.empty .autoCreate).withNode 1 with
    code := (∅ : ExtTreeMap Address (List Instruction)).insert 1 (names.map (⟨·, []⟩)) }

theorem built_listing {names : List String} (h : names ≠ []) : (listing names).Built := by
  have hnode : ((Flowgraph.empty .autoCreate).withNode 1).Built := .addNode (.empty .autoCreate) 1
  have hset : ((Flowgraph.empty .autoCreate).withNode 1).setInstructions 1 (names.map (⟨·, []⟩))
      = .ok (listing names) := by
    rw [Flowgraph.setInstructions, if_pos (Flowgraph.hasNode_withNode.mpr (.inl rfl)),
      if_neg (by simpa using h)]
    rfl
  exact .setInstructions hnode hset

/-- Five mnemonics make three triples, of which the last is the first again. -/
theorem triples_told_apart_again :
    ((listing ["push", "mov", "push", "mov", "push"]).triples.length = 3)
      ∧ (({ multiplicity := .once } : Extractor).mnemonicFeatures
          (listing ["push", "mov", "push", "mov", "push"])).length = 2
      ∧ ((({ multiplicity := .once } : Extractor).mnemonicFeatures
          (listing ["push", "mov", "push", "mov", "push"])).map Feature.id).Nodup := by
  obtain ⟨-, -, -, -, hplain, hfree⟩ := triples_told_apart { multiplicity := .once }
    (listing ["push", "mov", "push", "mov", "push"]) rfl rfl
  refine ⟨by decide +kernel, ?_, hfree (by decide +kernel)⟩
  rw [hplain (by decide +kernel)]
  decide +kernel

/-- Two triples in a row that have one text. -/
def twoCuts : Flowgraph :=
  listing ["nop", "nop", "nop\x00nop", "nop"]

/-- A graph that is read from a document has two triples, but they have one key and are one feature. -/
theorem key_shared :
    Flowgraph.parse twoCuts.toText .autoCreate = .ok twoCuts
      ∧ twoCuts.triples = [⟨"nop", "nop", "nop\x00nop"⟩, ⟨"nop", "nop\x00nop", "nop"⟩]
      ∧ Triple.key ⟨"nop", "nop", "nop\x00nop"⟩ = Triple.key ⟨"nop", "nop\x00nop", "nop"⟩
      ∧ (({ multiplicity := .once } : Extractor).mnemonicFeatures twoCuts).length = 1
      ∧ twoCuts.triples.toFinset.card = 2 := by
  have htriples : twoCuts.triples
      = [⟨"nop", "nop", "nop\x00nop"⟩, ⟨"nop", "nop\x00nop", "nop"⟩] := by decide +kernel
  refine ⟨?_, htriples, by decide +kernel, ?_, ?_⟩
  · have hwell : twoCuts.WellFormed := Flowgraph.wellFormed_built (built_listing (by simp))
    exact (Flowgraph.parse_of_wellFormed hwell _).1
  · rw [length_mnemonicFeatures rfl rfl, htriples]
    decide +kernel
  · rw [htriples]
    decide +kernel

end Extractor

end Flowprint
