import Patchbay.Diagnostic
/-!
Values under identities, in the order in which they came. No identity stands twice, so what is asked of
a roster is asked of one value.
-/
namespace Patchbay

structure Roster (α : Type) where
  entries : List (Identity × α) := []
  distinct : (entries.map Prod.fst).Nodup := by exact List.nodup_nil

namespace Roster

variable {α : Type}

instance : Inhabited (Roster α) := ⟨{}⟩

def values (r : Roster α) : List α := r.entries.map Prod.snd

def length (r : Roster α) : Nat := r.entries.length

def get? (r : Roster α) (i : Identity) : Option α := r.entries.lookup i

theorem map_fst_replaced (i : Identity) (a : α) (entries : List (Identity × α)) :
    (entries.map fun e => if e.1 = i then (e.1, a) else e).map Prod.fst = entries.map Prod.fst := by
  rw [List.map_map]
  apply List.map_congr_left
  intro e _
  simp only [Function.comp_apply]
  split <;> rfl

/-- Another value under an identity, if there is one already. -/
def replace (r : Roster α) (i : Identity) (a : α) : Roster α :=
  ⟨r.entries.map fun e => if e.1 = i then (e.1, a) else e, by
    rw [map_fst_replaced]; exact r.distinct⟩

def erase (r : Roster α) (i : Identity) : Roster α :=
  ⟨r.entries.filter fun e => e.1 != i, r.distinct.sublist (List.filter_sublist.map Prod.fst)⟩

theorem get?_eq_none {r : Roster α} {i : Identity} : r.get? i = none ↔ i ∉ r.entries.map Prod.fst := by
  simp only [get?, List.lookup_eq_none_iff, List.mem_map, not_exists, not_and]
  constructor
  · intro apart e member same
    have := apart e member
    simp [same] at this
  · intro apart e member
    simpa using fun same => apart e member same.symm

theorem lookup_eq_some {i : Identity} {a : α} {entries : List (Identity × α)}
    (distinct : (entries.map Prod.fst).Nodup) : entries.lookup i = some a ↔ (i, a) ∈ entries := by
  induction entries with
  | nil => simp
  | cons e rest ih =>
    obtain ⟨k, b⟩ := e
    simp only [List.map_cons, List.nodup_cons] at distinct
    by_cases same : i = k
    · subst same
      have absent : (i, a) ∉ rest := fun inside => distinct.1 (List.mem_map_of_mem inside)
      simp [absent, eq_comm]
    · simp [List.lookup_cons, beq_false_of_ne same, same, ih distinct.2]

theorem get?_eq_some {r : Roster α} {i : Identity} {a : α} : r.get? i = some a ↔ (i, a) ∈ r.entries :=
  lookup_eq_some r.distinct

theorem distinct_append {r : Roster α} {i : Identity} (absent : r.get? i = none) (a : α) :
    ((r.entries ++ [(i, a)]).map Prod.fst).Nodup := by
  rw [List.map_append, List.nodup_append]
  refine ⟨r.distinct, by simp, ?_⟩
  intro j member k last
  rw [show k = i by simpa using last]
  intro same
  exact get?_eq_none.mp absent (same ▸ member)

/-- A value under an identity; it takes the place of the one that was there. -/
def insert (r : Roster α) (i : Identity) (a : α) : Roster α :=
  if absent : r.get? i = none then ⟨r.entries ++ [(i, a)], distinct_append absent a⟩
  else r.replace i a

theorem lookup_replaced (i j : Identity) (a : α) (entries : List (Identity × α)) :
    (entries.map fun e => if e.1 = i then (e.1, a) else e).lookup j =
      if j = i then (entries.lookup j).map fun _ => a else entries.lookup j := by
  induction entries with
  | nil => simp
  | cons e rest ih =>
    obtain ⟨k, b⟩ := e
    by_cases here : j = k <;> by_cases same : k = i <;> grind

theorem get?_replace (r : Roster α) (i j : Identity) (a : α) :
    (r.replace i a).get? j = if j = i then (r.get? j).map fun _ => a else r.get? j :=
  lookup_replaced i j a r.entries

theorem replace_self {r : Roster α} {i : Identity} {a : α} (found : r.get? i = some a) :
    r.replace i a = r := by
  have same : (r.entries.map fun e => if e.1 = i then (e.1, a) else e) = r.entries.map id := by
    apply List.map_congr_left
    intro e member
    split
    · rename_i here
      have there : r.get? i = some e.2 := get?_eq_some.mpr (here ▸ member)
      rw [found, Option.some.injEq] at there
      rw [there]
      rfl
    · rfl
  rw [List.map_id] at same
  unfold replace
  congr

theorem replace_replace (r : Roster α) (i : Identity) (a b : α) :
    (r.replace i a).replace i b = r.replace i b := by
  unfold replace
  congr 1
  rw [List.map_map]
  apply List.map_congr_left
  intro e _
  simp only [Function.comp_apply]
  split <;> simp_all

theorem get?_insert (r : Roster α) (i j : Identity) (a : α) :
    (r.insert i a).get? j = if j = i then some a else r.get? j := by
  unfold insert
  split
  · rename_i absent
    rw [get?] at absent
    by_cases same : j = i
    · subst same
      simp [get?, List.lookup_append, absent]
    · cases found : r.entries.lookup j <;> simp [get?, List.lookup_append, same, found]
  · rename_i present
    obtain ⟨b, found⟩ := Option.ne_none_iff_exists'.mp present
    by_cases same : j = i
    · subst same
      simp [get?_replace, found]
    · simp [get?_replace, same]

theorem lookup_erased (i j : Identity) (entries : List (Identity × α)) :
    (entries.filter fun e => e.1 != i).lookup j = if j = i then none else entries.lookup j := by
  induction entries with
  | nil => simp
  | cons e rest ih =>
    obtain ⟨k, b⟩ := e
    by_cases here : j = k <;> by_cases same : k = i <;> grind

theorem get?_erase (r : Roster α) (i j : Identity) :
    (r.erase i).get? j = if j = i then none else r.get? j :=
  lookup_erased i j r.entries

@[simp] theorem length_replace (r : Roster α) (i : Identity) (a : α) :
    (r.replace i a).length = r.length := by
  simp [length, replace]

theorem length_insert {r : Roster α} {i : Identity} (absent : r.get? i = none) (a : α) :
    (r.insert i a).length = r.length + 1 := by
  simp [insert, absent, length]

theorem length_erased {i : Identity} {entries : List (Identity × α)}
    (distinct : (entries.map Prod.fst).Nodup) (member : i ∈ entries.map Prod.fst) :
    (entries.filter fun e => e.1 != i).length + 1 = entries.length := by
  induction entries with
  | nil => simp at member
  | cons e rest ih =>
    obtain ⟨k, b⟩ := e
    simp only [List.map_cons, List.nodup_cons] at distinct
    by_cases same : k = i
    · subst same
      have kept : (rest.filter fun e => e.1 != k) = rest := by
        apply List.filter_eq_self.mpr
        intro e inside
        simp only [bne_iff_ne, ne_eq]
        exact fun equal => distinct.1 (equal ▸ List.mem_map_of_mem inside)
      simp [kept]
    · have inside : i ∈ rest.map Prod.fst := by
        rcases List.mem_cons.mp member with equal | inside
        · exact absurd equal.symm same
        · exact inside
      simp [same, ih distinct.2 inside]

theorem length_erase {r : Roster α} {i : Identity} {a : α} (present : r.get? i = some a) :
    (r.erase i).length + 1 = r.length := by
  apply length_erased r.distinct
  apply Decidable.of_not_not
  intro absent
  rw [get?_eq_none.mpr absent] at present
  cases present

end Roster

end Patchbay
