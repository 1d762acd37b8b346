import Patchbay.Proofs.Json.Tree
import Mathlib.Logic.Relation

/-!
Settings as they may be laid out. The names that a structure knows and what stands for an absent one are
written down once, and from them follow the edits that are said not to matter, and what it is to repeat a
name. Two values are alike if any number of edits leads from one to the other, there or back; blanks are
none of an edit's business, as a value has none.
-/
namespace Patchbay

open Json

structure Slot where
  name : String
  absent : Tree
  inner : Option (List Slot)

def InterpreterSettings.slots : List Slot :=
  [⟨"memory_limit", .null, none⟩, ⟨"max_stack_size", .null, none⟩, ⟨"gc_threshold", .null, none⟩]

def OwnerSettings.slots : List Slot :=
  [⟨"name", .null, none⟩, ⟨"debug", .bool true, none⟩, ⟨"file", .null, none⟩]

def Settings.slots : List Slot :=
  [⟨"interpreter", .object [], some InterpreterSettings.slots⟩, ⟨"search_paths", .list [], none⟩,
    ⟨"owner", .object [], some OwnerSettings.slots⟩]

/-- An edit of a structure that is said not to matter. -/
inductive Relaid : List Slot → Tree → Tree → Prop
  | reordered {slots : List Slot} {l m : List (String × Tree)} (perm : l.Perm m) :
      Relaid slots (.object l) (.object m)
  | unknown {slots : List Slot} {key : String} (other : ∀ slot ∈ slots, slot.name ≠ key) (t : Tree)
      (l : List (String × Tree)) : Relaid slots (.object l) (.object ((key, t) :: l))
  | absent {slots : List Slot} {slot : Slot} (known : slot ∈ slots) {l : List (String × Tree)}
      (missing : slot.name ∉ l.map Prod.fst) :
      Relaid slots (.object l) (.object ((slot.name, slot.absent) :: l))
  | inside {slots inner : List Slot} {slot : Slot} (known : slot ∈ slots)
      (structured : slot.inner = some inner) {t u : Tree} (relaid : Relaid inner t u)
      (l m : List (String × Tree)) :
      Relaid slots (.object (l ++ (slot.name, t) :: m)) (.object (l ++ (slot.name, u) :: m))
  | listed {slots : List Slot} {items : List Tree} (enough : items.length ≤ slots.length) :
      Relaid slots (.object ((slots.map Slot.name).zip items)) (.list items)

def Alike (slots : List Slot) : Tree → Tree → Prop := Relation.EqvGen (Relaid slots)

/-- A known name stands twice in a structure, or in a structure within. -/
inductive Repeats : List Slot → Tree → Prop
  | here {slots : List Slot} {slot : Slot} (known : slot ∈ slots) {l : List (String × Tree)}
      (twice : 1 < (l.map Prod.fst).count slot.name) : Repeats slots (.object l)
  | member {slots inner : List Slot} {slot : Slot} (known : slot ∈ slots)
      (structured : slot.inner = some inner) {t : Tree} (repeats : Repeats inner t)
      {l : List (String × Tree)} (among : (slot.name, t) ∈ l) : Repeats slots (.object l)
  | item {slots inner : List Slot} {slot : Slot} {items : List Tree} {t : Tree}
      (among : (slot, t) ∈ slots.zip items) (structured : slot.inner = some inner)
      (repeats : Repeats inner t) : Repeats slots (.list items)

end Patchbay
