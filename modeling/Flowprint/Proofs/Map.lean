/-
  Flowprint.Proofs.Map
  ────────────────────────────────
  Maps that are built from entries.

  Entries that agree give each key one value, so that it does not matter in which order they are put
  into a map, or how often.

  Main statements:

      getElem?_insertMany_iff   what is found is what was put there
      insertMany_toList         the entries of a map make up the map
      insertMany_congr          the order of the entries does not matter
-/
import Mathlib.Data.List.Nodup
import Std.Data.ExtTreeMap

namespace Flowprint.Map

open Std

variable {κ υ : Type}

/-- No key has two values. -/
def Agree (entries : List (κ × υ)) : Prop :=
  ∀ {key value other}, (key, value) ∈ entries → (key, other) ∈ entries → value = other

theorem Agree.tail {entry : κ × υ} {entries : List (κ × υ)} (h : Agree (entry :: entries)) :
    Agree entries :=
  fun hvalue hother => h (List.mem_cons_of_mem _ hvalue) (List.mem_cons_of_mem _ hother)

theorem Agree.of_nodup {entries : List (κ × υ)} (h : (entries.map Prod.fst).Nodup) :
    Agree entries := by
  intro key value other hvalue hother
  exact (Prod.mk.inj (List.inj_on_of_nodup_map h hvalue hother rfl)).2

variable [Ord κ] [TransOrd κ] [LawfulEqOrd κ]

/-- An entry of a map that was filled is one that was put there, or was there before. -/
theorem getElem?_insertMany_iff {entries : List (κ × υ)} (h : Agree entries)
    (map : ExtTreeMap κ υ) {key : κ} {value : υ} :
    (map.insertMany entries)[key]? = some value ↔
      (key, value) ∈ entries ∨ (∀ other, (key, other) ∉ entries) ∧ map[key]? = some value := by
  induction entries generalizing map with
  | nil => simp
  | cons entry entries ih =>
    obtain ⟨first, given⟩ := entry
    rw [ExtTreeMap.insertMany_cons, ih h.tail, ExtTreeMap.getElem?_insert]
    by_cases hkey : first = key
    · subst hkey
      rw [if_pos Std.ReflCmp.compare_self]
      constructor
      · rintro (hmem | ⟨-, heq⟩)
        · exact .inl (List.mem_cons_of_mem _ hmem)
        · rw [Option.some.inj heq]
          exact .inl List.mem_cons_self
      · rintro (hmem | ⟨hnone, -⟩)
        · have hsame : given = value := h List.mem_cons_self hmem
          by_cases hlater : (first, value) ∈ entries
          · exact .inl hlater
          · refine .inr ⟨fun other hother => hlater ?_, congrArg some hsame⟩
            rwa [h (List.mem_cons_of_mem _ hother) hmem] at hother
        · exact absurd List.mem_cons_self (hnone given)
    · rw [if_neg fun heq => hkey (Std.compare_eq_iff_eq.mp heq)]
      have hother : ∀ other, (key, other) ∈ (first, given) :: entries ↔ (key, other) ∈ entries := by
        intro other
        rw [List.mem_cons, Prod.mk.injEq, or_iff_right fun heq => hkey heq.1.symm]
      simp only [hother]

theorem getElem?_insertMany_empty {entries : List (κ × υ)} (h : Agree entries) {key : κ}
    {value : υ} :
    ((∅ : ExtTreeMap κ υ).insertMany entries)[key]? = some value ↔ (key, value) ∈ entries := by
  rw [getElem?_insertMany_iff h, ExtTreeMap.getElem?_empty]
  simp

theorem agree_toList (map : ExtTreeMap κ υ) : Agree map.toList := by
  intro key value other hvalue hother
  rw [ExtTreeMap.mem_toList_iff_getElem?_eq_some] at hvalue hother
  exact Option.some.inj (hvalue.symm.trans hother)

/-- The entries of a map make up the map. -/
theorem insertMany_toList (map : ExtTreeMap κ υ) :
    (∅ : ExtTreeMap κ υ).insertMany map.toList = map := by
  refine ExtTreeMap.ext_getElem? fun key => Option.ext fun value => ?_
  rw [getElem?_insertMany_empty (agree_toList map), ExtTreeMap.mem_toList_iff_getElem?_eq_some]

/-- The order of the entries does not matter, nor how often they stand there. -/
theorem insertMany_congr {entries others : List (κ × υ)} (h : Agree entries)
    (hsame : ∀ entry, entry ∈ entries ↔ entry ∈ others) :
    (∅ : ExtTreeMap κ υ).insertMany entries = (∅ : ExtTreeMap κ υ).insertMany others := by
  have hothers : Agree others :=
    fun hvalue hother => h ((hsame _).mpr hvalue) ((hsame _).mpr hother)
  refine ExtTreeMap.ext_getElem? fun key => Option.ext fun value => ?_
  rw [getElem?_insertMany_empty h, getElem?_insertMany_empty hothers, hsame]

end Flowprint.Map
