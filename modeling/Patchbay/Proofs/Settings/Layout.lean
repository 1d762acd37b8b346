import Patchbay.Proofs.Settings
import Patchbay.Proofs.Settings.Structure
import Mathlib.Data.List.Nodup

/-!
Edits of settings that do not matter. What different fields make of a structure can be made in any order,
and the value that stands for an absent one leaves the default as it is; so the order of the members is
free, the default may be written or left out, and a list does what an object with its names does. A
structure within another is one of its fields, and what is true of it holds there.
-/
namespace Patchbay

open Json Text.Utf8

namespace Aspect

variable {σ : Type}

def Commutes (a b : Aspect σ) : Prop :=
  ∀ t u f g, a.put? t = some f → b.put? u = some g → ∀ s, f (g s) = g (f s)

instance : Std.Symm (Commutes (σ := σ)) where
  symm _ _ commutes t u f g first second s := (commutes u t g f second first s).symm

structure Lawful (aspects : List (Aspect σ)) (default : σ) : Prop where
  distinct : (aspects.map (·.slot.name)).Nodup
  commute : aspects.Pairwise Commutes
  absent : ∀ a ∈ aspects, ∃ f, a.put? a.slot.absent = some f ∧ f default = default
  inside : ∀ a ∈ aspects, ∀ inner, a.slot.inner = some inner → ∀ t u, Relaid inner t u → a.put? t = a.put? u
  refuses : ∀ a ∈ aspects, ∀ inner, a.slot.inner = some inner → ∀ t, Repeats inner t → a.put? t = none

theorem act_comm {a b : Aspect σ} (commutes : Commutes a b) (t u : Tree) (o : Option σ) :
    a.act t (b.act u o) = b.act u (a.act t o) := by
  cases o with
  | none => rfl
  | some s =>
    cases first : a.put? t with
    | none => simp [act, first]
    | some f =>
      cases second : b.put? u with
      | none => simp [act, second]
      | some g => simp [act, first, second, commutes t u f g first second s]

theorem act_refused {a : Aspect σ} {t : Tree} (refused : a.put? t = none) (o : Option σ) :
    a.act t o = none := by
  cases o with
  | none => rfl
  | some s => rw [act, refused]; rfl

theorem find?_known {aspects : List (Aspect σ)} (distinct : (aspects.map (·.slot.name)).Nodup)
    {a : Aspect σ} (known : a ∈ aspects) : find? aspects a.slot.name = some a := find?_name distinct known

/-- A known name stands at one place, if it stands only once. -/
theorem once_unique {aspects : List (Aspect σ)} {l : List (String × Tree)}
    (once : Once aspects (l.map Prod.fst)) {a : Aspect σ} (known : a ∈ aspects) {x y : String × Tree}
    (first : x ∈ l) (second : y ∈ l) (left : x.1 = a.slot.name) (right : y.1 = a.slot.name) : x = y := by
  have short := once a known
  rw [List.count, List.countP_map, List.countP_eq_length_filter] at short
  have inside {z : String × Tree} (member : z ∈ l) (name : z.1 = a.slot.name) :
      z ∈ l.filter ((· == a.slot.name) ∘ Prod.fst) := List.mem_filter.mpr ⟨member, by simpa using name⟩
  match l.filter ((· == a.slot.name) ∘ Prod.fst), short, inside first left, inside second right with
  | [z], _, first, second => rw [List.mem_singleton.mp first, List.mem_singleton.mp second]

theorem foldl_refused {β : Type*} {step : Option σ → β → Option σ} (kept : ∀ b, step none b = none)
    {l : List β} {b : β} (member : b ∈ l) (refused : ∀ o, step o b = none) (o : Option σ) :
    l.foldl step o = none := by
  obtain ⟨before, behind, rfl⟩ := List.append_of_mem member
  rw [List.foldl_append, List.foldl_cons, refused, List.foldl_fixed' kept]

namespace Lawful

variable {aspects : List (Aspect σ)} {default : σ} (lawful : Lawful aspects default)

include lawful

theorem put_comm {l : List (String × Tree)} (once : Once aspects (l.map Prod.fst)) :
    ∀ x ∈ l, ∀ y ∈ l, ∀ o, put aspects (put aspects o x) y = put aspects (put aspects o y) x := by
  intro x first y second o
  simp only [put]
  cases left : find? aspects x.1 with
  | none => cases find? aspects y.1 <;> rfl
  | some a =>
    cases right : find? aspects y.1 with
    | none => rfl
    | some b =>
      obtain ⟨known, name⟩ := find?_some left
      obtain ⟨other, named⟩ := find?_some right
      by_cases same : a = b
      · subst same
        rw [once_unique once known first second name.symm named.symm]
      · exact (act_comm (lawful.commute.forall known other same) _ _ _).symm

theorem reordered {l m : List (String × Tree)} (perm : l.Perm m) :
    build? aspects default (.object l) = build? aspects default (.object m) := by
  have same : Once aspects (l.map Prod.fst) ↔ Once aspects (m.map Prod.fst) := once_perm (perm.map _)
  simp only [build?]
  by_cases once : Once aspects (l.map Prod.fst)
  · rw [if_pos once, if_pos (same.mp once), perm.foldl_eq' (lawful.put_comm once)]
  · rw [if_neg once, if_neg (same.not.mp once)]

theorem listed {items : List Tree} (enough : items.length ≤ aspects.length) :
    build? aspects default (.object ((aspects.map (·.slot.name)).zip items)) =
      build? aspects default (.list items) := by
  have keys : (((aspects.map (·.slot.name)).zip items).map Prod.fst).Sublist
      (aspects.map (·.slot.name)) := by
    rw [List.zip_eq_zip_take_min, List.map_fst_zip (by simp)]
    exact List.take_sublist _ _
  have once : Once aspects (((aspects.map (·.slot.name)).zip items).map Prod.fst) :=
    fun a _ => List.nodup_iff_count_le_one.mp (lawful.distinct.sublist keys) a.slot.name
  simp only [build?]
  rw [if_pos once, if_pos enough, List.zip_map_left, List.foldl_map]
  refine List.foldl_ext _ _ _ fun o given member => ?_
  simp only [put, Prod.map, find?_known lawful.distinct (List.of_mem_zip member).1, id]

/-- A structure is the same after an edit. -/
theorem relaid {t u : Tree} (relaid : Relaid (aspects.map Aspect.slot) t u) :
    build? aspects default t = build? aspects default u := by
  cases relaid with
  | reordered perm => exact lawful.reordered perm
  | @unknown _ key other t l =>
    have other : ∀ a ∈ aspects, a.slot.name ≠ key := by simpa using other
    have skipped : put aspects (some default) (key, t) = some default := by
      rw [put, show find? aspects key = none from List.find?_eq_none.mpr (by simpa using other)]
    simp only [build?, List.map_cons, List.foldl_cons, skipped]
    exact if_congr (once_unknown other [] _).symm rfl rfl
  | @absent _ _ known l missing =>
    obtain ⟨a, member, rfl⟩ := List.mem_map.mp known
    obtain ⟨f, puts, idle⟩ := lawful.absent a member
    have filled : put aspects (some default) (a.slot.name, a.slot.absent) = some default := by
      rw [put, find?_known lawful.distinct member]
      simp only [act, puts, Option.bind_some, Option.map_some, idle]
    simp only [build?, List.map_cons, List.foldl_cons, filled]
    exact if_congr ⟨fun once => once_cons once missing, fun once => once_tail once⟩ rfl rfl
  | @inside _ inner _ known structured t u relaid l m =>
    obtain ⟨a, member, rfl⟩ := List.mem_map.mp known
    have puts := lawful.inside a member inner structured t u relaid
    have same (o : Option σ) : put aspects o (a.slot.name, t) = put aspects o (a.slot.name, u) := by
      simp only [put, find?_known lawful.distinct member, act, puts]
    simp only [build?, List.map_append, List.map_cons, List.foldl_append, List.foldl_cons, same]
  | listed enough =>
    rw [List.map_map]
    exact lawful.listed (by simpa using enough)

theorem repeats {t : Tree} (repeats : Repeats (aspects.map Aspect.slot) t) :
    build? aspects default t = none := by
  cases repeats with
  | @here _ _ known l twice =>
    obtain ⟨a, member, rfl⟩ := List.mem_map.mp known
    exact if_neg fun once => Nat.not_lt.mpr (once a member) twice
  | @member _ inner _ known structured t repeats l among =>
    obtain ⟨a, member, rfl⟩ := List.mem_map.mp known
    have refused (o : Option σ) : put aspects o (a.slot.name, t) = none := by
      simp only [put, find?_known lawful.distinct member]
      exact act_refused (lawful.refuses a member inner structured t repeats) o
    simp only [build?]
    rw [foldl_refused (put_none aspects) among refused, ite_self]
  | @item _ inner _ items t among structured repeats =>
    rw [List.zip_map_left] at among
    obtain ⟨⟨a, _⟩, given, same⟩ := List.mem_map.mp among
    cases same
    have refused := act_refused (lawful.refuses a (List.of_mem_zip given).1 inner structured _ repeats)
    simp only [build?]
    rw [foldl_refused (fun _ => rfl) given refused, ite_self]

end Lawful

def setting {α : Type} (slot : Slot) (value? : Tree → Option α) (set : α → σ → σ) : Aspect σ :=
  ⟨slot, fun t => (value? t).map set⟩

theorem Lawful.flat {aspects : List (Aspect σ)} {default : σ}
    (distinct : (aspects.map (·.slot.name)).Nodup) (commute : aspects.Pairwise Commutes)
    (absent : ∀ a ∈ aspects, ∃ f, a.put? a.slot.absent = some f ∧ f default = default)
    (flat : ∀ a ∈ aspects, a.slot.inner = none) : Lawful aspects default where
  distinct := distinct
  commute := commute
  absent := absent
  inside a member inner structured := by simp [flat a member] at structured
  refuses a member inner structured := by simp [flat a member] at structured

variable {α β : Type}

theorem serves_setting {f : Field σ} {slot : Slot} {p : Reader α} {value? : Tree → Option α}
    {set : α → σ → σ} (means : Means p value?) (name : f.name = slot.name)
    (reads : ∀ s, f.read s = p >>= fun x => pure (set x s)) : Serves f (setting slot value? set) := by
  refine ⟨name, fun s t text g rest lays blank closed => ?_⟩
  have same : (setting slot value? set).act t (some s) = (value? t).map (set · s) := by
    simp only [act, setting, Option.bind_some, Option.map_map]
    rfl
  have settles := (means lays blank closed).map (set · s)
  rw [← same] at settles
  rw [reads]
  exact settles

theorem commutes_setting {slot other : Slot} {value? : Tree → Option α} {content? : Tree → Option β}
    {set : α → σ → σ} {put : β → σ → σ} (apart : ∀ x y s, set x (put y s) = put y (set x s)) :
    Commutes (setting slot value? set) (setting other content? put) := by
  intro t u f g first second s
  obtain ⟨x, _, rfl⟩ := Option.map_eq_some_iff.mp first
  obtain ⟨y, _, rfl⟩ := Option.map_eq_some_iff.mp second
  exact apart x y s

end Aspect

open Aspect

def InterpreterSettings.aspects : List (Aspect InterpreterSettings) :=
  [setting ⟨"memory_limit", .null, none⟩ (Tree.optional? Tree.size?)
      fun x s => { s with memoryLimit := x },
    setting ⟨"max_stack_size", .null, none⟩ (Tree.optional? Tree.size?)
      fun x s => { s with maxStackSize := x },
    setting ⟨"gc_threshold", .null, none⟩ (Tree.optional? Tree.size?)
      fun x s => { s with gcThreshold := x }]

def OwnerSettings.aspects : List (Aspect OwnerSettings) :=
  [setting ⟨"name", .null, none⟩ (Tree.optional? Tree.text?) fun x s => { s with name := x },
    setting ⟨"debug", .bool true, none⟩ Tree.bool? fun x s => { s with debug := x },
    setting ⟨"file", .null, none⟩ (Tree.optional? Tree.text?) fun x s => { s with file := x }]

def Settings.aspects : List (Aspect Settings) :=
  [setting ⟨"interpreter", .object [], some InterpreterSettings.slots⟩
      (build? InterpreterSettings.aspects {}) fun x s => { s with interpreter := x },
    setting ⟨"search_paths", .list [], none⟩ (Tree.list? Tree.text?) fun x s => { s with searchPaths := x },
    setting ⟨"owner", .object [], some OwnerSettings.slots⟩
      (build? OwnerSettings.aspects {}) fun x s => { s with owner := x }]

theorem InterpreterSettings.lawful : Lawful InterpreterSettings.aspects {} := by
  refine .flat (by decide) ?_ ?_ ?_ <;>
    simp only [InterpreterSettings.aspects, List.pairwise_cons, List.forall_mem_cons]
  · exact ⟨⟨commutes_setting fun _ _ _ => rfl, commutes_setting fun _ _ _ => rfl, nofun⟩,
      ⟨commutes_setting fun _ _ _ => rfl, nofun⟩, nofun, .nil⟩
  · exact ⟨⟨_, rfl, rfl⟩, ⟨_, rfl, rfl⟩, ⟨_, rfl, rfl⟩, nofun⟩
  · exact ⟨rfl, rfl, rfl, nofun⟩

theorem InterpreterSettings.serves :
    List.Forall₂ Serves InterpreterSettings.fields InterpreterSettings.aspects :=
  .cons (serves_setting (means_optional means_wordSize) rfl fun _ => rfl) <|
    .cons (serves_setting (means_optional means_wordSize) rfl fun _ => rfl) <|
    .cons (serves_setting (means_optional means_wordSize) rfl fun _ => rfl) .nil

theorem OwnerSettings.lawful : Lawful OwnerSettings.aspects {} := by
  refine .flat (by decide) ?_ ?_ ?_ <;>
    simp only [OwnerSettings.aspects, List.pairwise_cons, List.forall_mem_cons]
  · exact ⟨⟨commutes_setting fun _ _ _ => rfl, commutes_setting fun _ _ _ => rfl, nofun⟩,
      ⟨commutes_setting fun _ _ _ => rfl, nofun⟩, nofun, .nil⟩
  · exact ⟨⟨_, rfl, rfl⟩, ⟨_, rfl, rfl⟩, ⟨_, rfl, rfl⟩, nofun⟩
  · exact ⟨rfl, rfl, rfl, nofun⟩

theorem OwnerSettings.serves : List.Forall₂ Serves OwnerSettings.fields OwnerSettings.aspects :=
  .cons (serves_setting (means_optional (means_text _)) rfl fun _ => rfl) <|
    .cons (serves_setting means_bool rfl fun _ => rfl) <|
    .cons (serves_setting (means_optional (means_text _)) rfl fun _ => rfl) .nil

theorem Settings.lawful : Lawful Settings.aspects {} := by
  have interpreter : InterpreterSettings.aspects.map Aspect.slot = InterpreterSettings.slots := rfl
  have owner : OwnerSettings.aspects.map Aspect.slot = OwnerSettings.slots := rfl
  constructor
  · decide
  all_goals simp only [Settings.aspects, List.pairwise_cons, List.forall_mem_cons]
  · exact ⟨⟨commutes_setting fun _ _ _ => rfl, commutes_setting fun _ _ _ => rfl, nofun⟩,
      ⟨commutes_setting fun _ _ _ => rfl, nofun⟩, nofun, .nil⟩
  · exact ⟨⟨_, rfl, rfl⟩, ⟨_, rfl, rfl⟩, ⟨_, rfl, rfl⟩, nofun⟩
  · refine ⟨?_, nofun, ?_, nofun⟩
    · rintro _ ⟨⟩ t u relaid
      exact congrArg (Option.map _) (InterpreterSettings.lawful.relaid (interpreter ▸ relaid))
    · rintro _ ⟨⟩ t u relaid
      exact congrArg (Option.map _) (OwnerSettings.lawful.relaid (owner ▸ relaid))
  · refine ⟨?_, nofun, ?_, nofun⟩
    · rintro _ ⟨⟩ t repeats
      exact congrArg (Option.map _) (InterpreterSettings.lawful.repeats (interpreter ▸ repeats))
    · rintro _ ⟨⟩ t repeats
      exact congrArg (Option.map _) (OwnerSettings.lawful.repeats (owner ▸ repeats))

theorem Settings.serves : List.Forall₂ Serves Settings.fields Settings.aspects :=
  .cons (serves_setting (means_structure InterpreterSettings.serves _ _) rfl fun _ => rfl) <|
    .cons (serves_setting (means_list (means_text _)) rfl fun _ => rfl) <|
    .cons (serves_setting (means_structure OwnerSettings.serves _ _) rfl fun _ => rfl) .nil

theorem parse_holds {text : String} {t : Tree} (holds : Holds text t) :
    Agrees (Settings.parse text) (build? Settings.aspects {} t) := by
  obtain ⟨g, s, h, before, lays, behind, bytes⟩ := holds
  have closed : Closed h := by simpa using closed_blank behind .nil
  have means := means_structure Settings.serves "Settings" {} lays before closed
  have read : Agrees (whole Settings.read (g ++ s ++ h)) (build? Settings.aspects {} t) :=
    whole_settles means behind
  rw [List.append_assoc, ← bytes] at read
  generalize build? Settings.aspects {} t = o at read ⊢
  cases o with
  | some s =>
    have ok : whole Settings.read (ofString text) = .ok s := read
    simp only [Settings.parse, Settings.ofJson, ok, Agrees]
  | none =>
    obtain ⟨failure, failed⟩ := read
    exact ⟨_, by simp only [Settings.parse, Settings.ofJson, failed]; rfl⟩

theorem build_alike {t u : Tree} (alike : Alike Settings.slots t u) :
    build? Settings.aspects {} t = build? Settings.aspects {} u := by
  have slots : Settings.aspects.map Aspect.slot = Settings.slots := rfl
  induction alike with
  | rel t u relaid => exact Settings.lawful.relaid (slots ▸ relaid)
  | refl t => rfl
  | symm t u _ ih => exact ih.symm
  | trans t u v _ _ first second => exact first.trans second

/-- Texts that hold the same settings but for the order of the members, unknown members, defaults that are
written or left out, and structures that are objects or lists, are parsed alike whatever their blanks; and
a text in which a known name is repeated is refused. -/
theorem layout_free :
    (∀ t u, Alike Settings.slots t u → ∀ a b, Holds a t → Holds b u →
      ∀ s, Settings.parse a = .ok s ↔ Settings.parse b = .ok s) ∧
    ∀ t, Repeats Settings.slots t → ∀ a, Holds a t → ∃ e, Settings.parse a = .error e := by
  have slots : Settings.aspects.map Aspect.slot = Settings.slots := rfl
  constructor
  · intro t u alike a b first second s
    rw [(parse_holds first).ok_iff, (parse_holds second).ok_iff, build_alike alike]
  · intro t repeats a holds
    have agrees := parse_holds holds
    rwa [Settings.lawful.repeats (slots ▸ repeats)] at agrees

/-- The settings of an owner as an object, and as a list behind a member that has no meaning. -/
theorem owner_layout_free :
    let plain := "\x7b\"owner\":\x7b\"debug\":false,\"name\":null\x7d\x7d"
    let other := "\x7b \"x\": [1e2],\"owner\" :[null,false] \x7d\n"
    let twice := "\x7b\"owner\":\x7b\"debug\":true,\"debug\":true\x7d\x7d"
    (∀ s, Settings.parse plain = .ok s ↔ Settings.parse other = .ok s) ∧
      Settings.parse other = .ok { owner := { debug := false } } ∧ ∃ e, Settings.parse twice = .error e := by
  intro plain other twice
  have owner : (⟨"owner", .object [], some OwnerSettings.slots⟩ : Slot) ∈ Settings.slots :=
    .tail _ (.tail _ (.head _))
  have debug : (⟨"debug", .bool true, none⟩ : Slot) ∈ OwnerSettings.slots := .tail _ (.head _)
  have swapped : Relaid OwnerSettings.slots (.object [("debug", .bool false), ("name", .null)])
      (.object [("name", .null), ("debug", .bool false)]) := .reordered (.swap _ _ _)
  have listed : Relaid OwnerSettings.slots (.object [("name", .null), ("debug", .bool false)])
      (.list [.null, .bool false]) :=
    .listed (show List.length [Tree.null, .bool false] ≤ OwnerSettings.slots.length by decide)
  let number : Tree := .number { whole := 1, exponent := some ⟨false, none, 2, []⟩ }
  have alike : Alike Settings.slots (.object [("owner", .object [("debug", .bool false), ("name", .null)])])
      (.object [("x", .list [number]), ("owner", .list [.null, .bool false])]) :=
    .trans _ _ _ (.rel _ _ (.inside owner rfl swapped [] []))
      (.trans _ _ _ (.rel _ _ (.inside owner rfl listed [] [])) (.rel _ _ (.unknown (by decide) _ _)))
  have space : Blank [0x20] := by decide
  have key : Spells _ "owner" := spells_plain (by decide)
  have first : Holds plain (.object [("owner", .object [("debug", .bool false), ("name", .null)])]) :=
    ⟨[], _, [], blank_nil, .object (.cons (.first blank_nil) key blank_nil blank_nil
      (.object (.cons (.first blank_nil) (spells_plain (by decide)) blank_nil blank_nil .no
        (.cons (.next blank_nil blank_nil) (spells_plain (by decide)) blank_nil blank_nil .null (.nil _)))
        blank_nil) (.nil _)) blank_nil, blank_nil, by decide +kernel⟩
  have second : Holds other (.object [("x", .list [number]), ("owner", .list [.null, .bool false])]) :=
    ⟨[], _, [0x0A], blank_nil, .object (.cons (.first space) (spells_plain (by decide)) blank_nil space
      (.list (.cons (.first blank_nil) (.number _) (.nil _)) blank_nil)
      (.cons (.next blank_nil blank_nil) key space blank_nil
        (.list (.cons (.first blank_nil) .null (.cons (.next blank_nil blank_nil) .no (.nil _))) blank_nil)
        (.nil _))) space, by decide, by decide +kernel⟩
  have third : Holds twice (.object [("owner", .object [("debug", .bool true), ("debug", .bool true)])]) :=
    ⟨[], _, [], blank_nil, .object (.cons (.first blank_nil) key blank_nil blank_nil
      (.object (.cons (.first blank_nil) (spells_plain (by decide)) blank_nil blank_nil .yes
        (.cons (.next blank_nil blank_nil) (spells_plain (by decide)) blank_nil blank_nil .yes (.nil _)))
        blank_nil) (.nil _)) blank_nil, blank_nil, by decide +kernel⟩
  have read : Settings.parse plain = .ok { owner := { debug := false } } := by decide +kernel
  have same := layout_free.1 _ _ alike _ _ first second
  have repeats : Repeats OwnerSettings.slots (.object [("debug", .bool true), ("debug", .bool true)]) :=
    .here debug (by decide)
  exact ⟨same, (same _).mp read, layout_free.2 _ (.member owner rfl repeats (.head _)) _ third⟩

end Patchbay
