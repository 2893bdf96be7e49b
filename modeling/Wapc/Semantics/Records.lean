import Mathlib.Data.List.Nodup
import Mathlib.Logic.Function.Basic

/-!
# Records whose values are found by name

A record is read by position where it is built and by name where it is used. The two agree
for exactly the names that are all different. A list that grows at its end keeps the
positions of its entries.
-/

namespace Wapc.Semantics

/-- Values under names, in order; the first value under a name is the one that is found. -/
abbrev Record (κ α : Type*) := List (κ × α)

namespace Record

variable {κ α : Type*} [BEq κ]

/-- The values under some names, if each of the names has one. -/
def project (record : Record κ α) (names : List κ) : Option (List α) :=
  names.mapM fun name => record.lookup name

variable {record : Record κ α} {names : List κ} {values : List α}

theorem project_eq_some_iff :
    record.project names = some values ↔ names.map (record.lookup ·) = values.map some := by
  unfold project
  induction names generalizing values with
  | nil => cases values <;> simp
  | cons name names ih =>
    cases values with
    | nil => simp [Option.bind_eq_some_iff]
    | cons value values => simp [Option.bind_eq_some_iff, ih]

/-- Different values are found under different names only. -/
theorem nodup_of_project (found : record.project names = some values) (nodup : values.Nodup) :
    names.Nodup := by
  have mapped : (names.map (record.lookup ·)).Nodup := by
    rw [project_eq_some_iff.mp found]
    exact nodup.map (fun _ _ => Option.some.inj)
  exact mapped.of_map

variable [LawfulBEq κ]

/-- Names that are all different find what was put under them. -/
theorem project_zip (nodup : names.Nodup) (full : values.length = names.length) :
    Record.project (names.zip values) names = some values := by
  rw [project_eq_some_iff]
  induction names generalizing values with
  | nil =>
    rw [List.length_eq_zero_iff.mp full]
    rfl
  | cons name names ih =>
    obtain ⟨value, values, rfl⟩ := List.exists_cons_of_length_eq_add_one full
    obtain ⟨fresh, nodup⟩ := List.nodup_cons.mp nodup
    rw [List.zip_cons_cons, List.map_cons, List.map_cons, List.lookup_cons_self,
      ← ih nodup (Nat.succ.inj full)]
    congr 1
    apply List.map_congr_left
    intro other member
    have differs : (other == name) = false := by
      rw [beq_eq_false_iff_ne]
      rintro rfl
      exact fresh member
    rw [List.lookup_cons, differs]

end Record

/-! ### Entries found by a key -/

section Entries

variable {κ α : Type*} [DecidableEq κ]

theorem mem_of_lookup {record : Record κ α} {key : κ} {value : α}
    (found : record.lookup key = some value) : (key, value) ∈ record := by
  obtain ⟨before, after, rfl, -⟩ := List.lookup_eq_some_iff.mp found
  simp

/-- Keys that are all different find their values. -/
theorem lookup_of_mem {record : Record κ α} {key : κ} {value : α}
    (nodup : (record.map Prod.fst).Nodup) (member : (key, value) ∈ record) :
    record.lookup key = some value := by
  obtain ⟨other, found⟩ : ∃ other, record.lookup key = some other :=
    Option.isSome_iff_exists.mp (List.lookup_isSome_iff.mpr ⟨_, member, by simp⟩)
  have same := List.inj_on_of_nodup_map nodup (mem_of_lookup found) member rfl
  rw [found, (Prod.mk.inj same).2]

/-- Put values under their keys, one after the other. -/
def fill (table : κ → Option α) (record : Record κ α) : κ → Option α :=
  record.foldl (fun table entry => Function.update table entry.1 (some entry.2)) table

variable {table : κ → Option α} {record : Record κ α} {key : κ} {value : α}

end Entries

/-! ### Entries found by their position -/

/-- An entry of a list with one more is an old one or the new one. -/
theorem getElem?_snoc {α : Type*} {entries : List α} {new entry : α} {n : Nat}
    (present : (entries ++ [new])[n]? = some entry) :
    entries[n]? = some entry ∨ (n = entries.length ∧ entry = new) := by
  rw [List.getElem?_append] at present
  split at present
  · exact .inl present
  · rename_i beyond
    right
    have inside := (List.getElem?_eq_some_iff.mp present).1
    rw [List.length_singleton] at inside
    have last : n = entries.length := by omega
    subst last
    simp only [Nat.sub_self, List.getElem?_cons_zero, Option.some.injEq] at present
    exact ⟨rfl, present.symm⟩

end Wapc.Semantics
