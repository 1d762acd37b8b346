import Patchbay.Proofs.Json.Meaning
import Patchbay.Proofs.Settings.Edits
import Patchbay.Settings.Reader
import Mathlib.Data.List.Forall2
import Mathlib.Data.List.Pairwise

/-!
What a value means to the reader of a structure. Each field makes something of the structure out of the
value that is given for it; the members of an object do so one after the other, and the items of a list
in the order of the fields. A name that is not known makes nothing of the structure, and one that stands
twice is refused.
-/
namespace Patchbay

open Json Text.Utf8

/-- A field, and what a value for it makes of the structure. A value that the field refuses makes nothing
of it. -/
structure Aspect (σ : Type) where
  slot : Slot
  put? : Tree → Option (σ → σ)

namespace Aspect

variable {σ : Type}

def act (a : Aspect σ) (t : Tree) (o : Option σ) : Option σ := o.bind fun s => (a.put? t).map (· s)

/-- What a reader of a field does is what the value makes of the structure. -/
structure Serves (f : Field σ) (a : Aspect σ) : Prop where
  name : f.name = a.slot.name
  reads : ∀ s, Means (f.read s) fun t => a.act t (some s)

def find? (aspects : List (Aspect σ)) (key : String) : Option (Aspect σ) :=
  aspects.find? (·.slot.name == key)

def put (aspects : List (Aspect σ)) (o : Option σ) (member : String × Tree) : Option σ :=
  match find? aspects member.1 with
  | some a => a.act member.2 o
  | none => o

def Once (aspects : List (Aspect σ)) (keys : List String) : Prop :=
  ∀ a ∈ aspects, keys.count a.slot.name ≤ 1

instance (aspects : List (Aspect σ)) (keys : List String) : Decidable (Once aspects keys) :=
  inferInstanceAs (Decidable (∀ a ∈ aspects, _))

/-- The structure that a value stands for. -/
def build? (aspects : List (Aspect σ)) (default : σ) : Tree → Option σ
  | .object members =>
    if Once aspects (members.map Prod.fst) then members.foldl (put aspects) (some default) else none
  | .list items =>
    if items.length ≤ aspects.length then
      (aspects.zip items).foldl (fun o given => given.1.act given.2 o) (some default)
    else none
  | _ => none

theorem put_none (aspects : List (Aspect σ)) (member : String × Tree) : put aspects none member = none := by
  rw [put]
  cases find? aspects member.1 <;> rfl

theorem find?_serves {fields : List (Field σ)} {aspects : List (Aspect σ)}
    (serves : List.Forall₂ Serves fields aspects) (key : String) :
    fields.find? (·.name == key) = none ∧ find? aspects key = none ∨
      ∃ f a, fields.find? (·.name == key) = some f ∧ find? aspects key = some a ∧ Serves f a := by
  induction serves with
  | nil => exact .inl ⟨rfl, rfl⟩
  | @cons f a fields aspects serves others ih =>
    by_cases same : f.name = key
    · exact .inr ⟨f, a, List.find?_cons_of_pos (by simpa using same),
        List.find?_cons_of_pos (by simpa [← serves.name] using same), serves⟩
    · rw [find?, List.find?_cons_of_neg (by simpa using same),
        List.find?_cons_of_neg (by simpa [← serves.name] using same)]
      exact ih

theorem find?_none {aspects : List (Aspect σ)} {key : String} (absent : find? aspects key = none) :
    ∀ a ∈ aspects, a.slot.name ≠ key := by
  simpa [find?] using absent

theorem find?_some {aspects : List (Aspect σ)} {key : String} {a : Aspect σ}
    (found : find? aspects key = some a) : a ∈ aspects ∧ a.slot.name = key :=
  ⟨List.mem_of_find?_eq_some found, by simpa using List.find?_some found⟩

theorem once_unknown {aspects : List (Aspect σ)} {key : String} (other : ∀ a ∈ aspects, a.slot.name ≠ key)
    (seen keys : List String) : Once aspects (seen ++ key :: keys) ↔ Once aspects (seen ++ keys) := by
  refine forall₂_congr fun a member => ?_
  rw [List.count_append, List.count_append, List.count_cons_of_ne (other a member).symm]

theorem once_perm {aspects : List (Aspect σ)} {keys others : List String} (perm : keys.Perm others) :
    Once aspects keys ↔ Once aspects others := by
  refine forall₂_congr fun a member => ?_
  rw [perm.count_eq]

theorem once_cons {aspects : List (Aspect σ)} {key : String} {seen : List String} (once : Once aspects seen)
    (again : key ∉ seen) : Once aspects (key :: seen) := by
  intro a member
  by_cases same : a.slot.name = key
  · rw [same, List.count_cons_self, List.count_eq_zero.mpr again]
  · rw [List.count_cons_of_ne (Ne.symm same)]
    exact once a member

theorem once_tail {aspects : List (Aspect σ)} {key : String} {keys : List String}
    (once : Once aspects (key :: keys)) : Once aspects keys :=
  fun a member => Nat.le_trans List.count_le_count_cons (once a member)

variable {rest : Bytes}

theorem takes_member {first : Bool} {j : Bytes} (joint : Joint first j) (rest : Bytes) :
    Takes (moreKeys first) j (0x22 :: rest) true := by
  cases joint with
  | first blank => exact .last (.blanks blank rfl _) (.pure _ _)
  | next before behind =>
    exact .bind (.blanks before rfl _) (.step (.advance _ _) (.last (.blanks behind rfl _) (.pure _ _)))

theorem takes_colon {g : Bytes} (blank : Blank g) (rest : Bytes) : Takes colon (g ++ [0x3A]) rest () :=
  .bind (.blanks blank rfl _) (.advance _ _)

theorem fails_repeated {α : Type} (name : String) : Fails (repeated name : Reader α) := by
  refine .behind fun b => ?_
  split
  · exact .behind fun _ => .here _
  · exact .here _

theorem settles_readFields {fields : List (Field σ)} {aspects : List (Aspect σ)}
    (serves : List.Forall₂ Serves fields aspects) {members : List (String × Tree)} {g : Bytes}
    (blank : Blank g) : ∀ {first s fuel}, LaysMembers first members s → members.length < fuel →
      ∀ seen state, Once aspects seen →
        Settles (readFields fields first seen state fuel) (s ++ g) (0x7D :: rest)
          (if Once aspects (seen ++ members.map Prod.fst) then members.foldl (put aspects) (some state)
            else none) := by
  induction members with
  | nil =>
    rintro first s (_ | fuel) ⟨⟩ enough seen state once
    · cases enough
    · have ends : Takes (moreKeys first) g (0x7D :: rest) false := .last (.blanks blank rfl _) (.pure _ _)
      rw [List.map_nil, List.append_nil, if_pos once]
      exact .last ends (Takes.pure _ _)
  | cons member members ih =>
    rintro first s (_ | fuel) lays enough seen state once
    · cases enough
    · cases lays with
      | @cons _ name t _ j _ h i s others joint spells before behind lays more =>
        obtain ⟨l, text, rfl⟩ := spells
        have closed : Closed ((others ++ g) ++ 0x7D :: rest) := by
          simpa using closed_members more blank rest
        have key (rest : Bytes) : Takes string (l.bytes ++ [0x22]) rest name := by
          have settles := settles_string (strung_literal l rest)
          rwa [text, Option.map_some, String.ofList_toList] at settles
        have order : j ++ (l.quoted ++ (h ++ 0x3A :: (i ++ (s ++ others)))) ++ g =
            j ++ 0x22 :: ((l.bytes ++ [0x22]) ++ ((h ++ [0x3A]) ++ ((i ++ s) ++ (others ++ g)))) := by
          simp only [Literal.quoted, List.cons_append, List.append_assoc, List.nil_append]
        rw [order]
        refine .after (takes_member joint _) (.step (.advance _ _) (.after (key _) ?_))
        obtain ⟨unknown, absent⟩ | ⟨f, a, found, known, serve⟩ := find?_serves serves name
        · have left := ih more (Nat.lt_of_succ_lt_succ enough) seen state once
          rw [List.map_cons, List.foldl_cons, put, absent]
          simp only [unknown, once_unknown (find?_none absent)]
          refine .after (takes_colon before _) (.get fun n => ?_)
          refine .after ((skips _).value lays ?_ behind closed) left
          simp only [List.length_append]
          omega
        · rw [List.map_cons, List.foldl_cons, put, known]
          simp only [found]
          obtain ⟨member, rfl⟩ := find?_some known
          by_cases again : a.slot.name ∈ seen
          · have twice : ¬Once aspects (seen ++ a.slot.name :: members.map Prod.fst) := by
              intro once
              have one := once a member
              rw [List.count_append, List.count_cons_self] at one
              have := List.count_pos_iff.mpr again
              omega
            rw [if_neg twice, if_pos (by simpa using again)]
            exact (fails_repeated _).settles _ _
          · have fresh := once_cons once again
            have left := ih more (Nat.lt_of_succ_lt_succ enough) (a.slot.name :: seen)
            have read := Settles.bind (serve.reads state lays behind closed) fun s _ => left s fresh
            have all : (a.act t (some state)).bind (fun s =>
                  if Once aspects (a.slot.name :: seen ++ members.map Prod.fst) then
                    members.foldl (put aspects) (some s)
                  else none) =
                if Once aspects (a.slot.name :: (seen ++ members.map Prod.fst)) then
                  members.foldl (put aspects) (a.act t (some state))
                else none := by
              cases a.act t (some state) with
              | none => rw [List.foldl_fixed' (put_none aspects), ite_self]; rfl
              | some s => rfl
            rw [if_neg (by simpa using again)]
            simp only [once_perm List.perm_middle]
            exact .after (takes_colon before _) (all ▸ read)

theorem takes_endList {g : Bytes} (blank : Blank g) (rest : Bytes) : Takes endList (g ++ [0x5D]) rest () :=
  .bind (.blanks blank rfl _) (.advance _ _)

theorem settles_endList {first : Bool} {t : Tree} {items : List Tree} {s : Bytes}
    (lays : LaysItems first (t :: items) s) (more : Bytes) : Settles endList (s ++ more) rest none := by
  cases lays with
  | cons joint lays others =>
    obtain ⟨b, s, rfl, begins⟩ := lays.begins
    obtain ⟨mark, ends, comma⟩ := begins.mark
    cases joint with
    | first blank =>
      rw [List.append_assoc]
      refine .after (.blanks blank mark _) ?_
      split
      · rename_i same
        exact absurd (Option.some.inj same) ends
      · rename_i same
        exact absurd (Option.some.inj same) comma
      · exact (Fails.next _).settles _ _
      · contradiction
    | next before behind =>
      rw [List.append_assoc, List.append_assoc]
      refine .after (.blanks before rfl _) (.step (.advance _ _) ((Fails.behind fun b => ?_).settles _ _))
      split
      · exact .next _
      · exact .next _

theorem settles_readItems {fields : List (Field σ)} {aspects : List (Aspect σ)}
    (serves : List.Forall₂ Serves fields aspects) {g : Bytes} (blank : Blank g) : ∀ {first items s},
      LaysItems first items s → ∀ state,
        Settles (readItems first state fields >>= fun s => endList >>= fun _ => pure s)
          (s ++ (g ++ [0x5D])) rest
          (if items.length ≤ aspects.length then
            (aspects.zip items).foldl (fun o given => given.1.act given.2 o) (some state)
          else none) := by
  have ends {h : Bytes} (blank : Blank h) (state : σ) :
      Takes (endList >>= fun _ => pure state) (h ++ [0x5D]) rest state :=
    .last (takes_endList blank rest) (.pure _ _)
  induction serves with
  | nil =>
    intro first items s lays state
    cases items with
    | nil =>
      cases lays
      exact Takes.look (.pure state _) (ends blank state)
    | cons t items =>
      rw [if_neg (by simp)]
      exact Settles.look (.pure state _) (settles_endList lays _).refused
  | @cons f a fields aspects serve serves ih =>
    intro first items s lays state
    rw [readItems, bind_assoc]
    cases items with
    | nil =>
      cases lays
      rw [List.nil_append]
      refine Settles.after (takes_lastItem blank first _) ?_
      simp only [Bool.false_eq_true, if_false, pure_bind]
      exact ends blank_nil state
    | cons t items =>
      cases lays with
      | @cons _ _ _ j s others joint lays more =>
        have start : Takes (moreItems first) j (s ++ (others ++ (g ++ [0x5D])) ++ rest) true := by
          rw [List.append_assoc]
          exact takes_joint joint lays _
        have read := Settles.bind (serve.reads state lays blank_nil (closed_items more blank rest))
          fun s _ => ih more s
        have all : (a.act t (some state)).bind (fun s =>
              if items.length ≤ aspects.length then
                (aspects.zip items).foldl (fun o given => given.1.act given.2 o) (some s)
              else none) =
            if (t :: items).length ≤ (a :: aspects).length then
              ((a :: aspects).zip (t :: items)).foldl (fun o given => given.1.act given.2 o) (some state)
            else none := by
          simp only [List.length_cons, Nat.add_le_add_iff_right, List.zip_cons_cons, List.foldl_cons]
          cases a.act t (some state) with
          | none => rw [List.foldl_fixed' fun _ => rfl, ite_self]; rfl
          | some s => rfl
        have order : j ++ (s ++ others) ++ (g ++ [0x5D]) = j ++ (s ++ (others ++ (g ++ [0x5D]))) := by
          simp only [List.append_assoc]
        rw [order]
        refine .after start ?_
        simp only [if_true, bind_assoc]
        exact all ▸ read

/-- A structure is read as the value that is laid out builds it. -/
theorem means_structure {fields : List (Field σ)} {aspects : List (Aspect σ)}
    (serves : List.Forall₂ Serves fields aspects) (name : String) (default : σ) :
    Means (readStructure name fields default) (build? aspects default) := by
  intro t s g rest lays blank closed
  cases lays with
  | list lays behind =>
    exact .after (takes_valueStart blank rfl _)
      (.step (.advance _ _) (settles_readItems serves behind lays default))
  | @object members s h lays behind =>
    have enough := lays.length_le
    refine .after (takes_valueStart blank rfl _) (.step (.advance _ _) (.get fun n => ?_))
    rw [← List.append_assoc]
    refine .close (settles_readFields serves behind lays ?_ [] default (by simp [Once])) fun s => ?_
    · simp only [List.length_append]
      omega
    · exact .last (.look (.skipSpace rfl _) (.advance _ _)) (.pure _ _)
  | number n =>
    obtain ⟨b, s, bytes, mark, other⟩ := n.begins
    have bracket : (b == 0x5B) = false := by simpa using other 0x5B (by decide) rfl
    have brace : (b == 0x7B) = false := by simpa using other 0x7B (by decide) rfl
    rw [bytes]
    exact settles_wrongType _ blank mark (by simp only [bracket, brace]; rfl) _ _
  | _ => exact settles_wrongType _ blank rfl rfl _ _

end Aspect

end Patchbay
