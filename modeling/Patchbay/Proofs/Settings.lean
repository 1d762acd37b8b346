import Patchbay.Proofs.Json.Reading
import Patchbay.Settings.Load
import Mathlib.Data.List.Forall2

/-!
Settings that are written and read again. A structure comes back field by field, so a field whose default
is not empty comes back as it was written and not as it would be if it were absent.
-/
namespace Patchbay

open Json Text.Utf8

/-- What is written of a field, and what reading it does to the structure. -/
structure FieldText (σ : Type) where
  text : String
  put : σ → σ

def FieldText.Fits {σ : Type} (f : Field σ) (p : FieldText σ) : Prop :=
  ∀ s, Reads (f.read s) (ofString p.text) (p.put s)

section Structures

variable {σ : Type} {ρ : Type*}

def putAll (parts : List (FieldText σ)) (s : σ) : σ := parts.foldl (fun s p => p.put s) s

def pairs (fields : List (Field σ)) (parts : List (FieldText σ)) : List (String × String) :=
  fields.zipWith (fun f p => (f.name, p.text)) parts

def pairBytes (pair : String × String) : Bytes := ofString (writeString pair.1 ++ ":" ++ pair.2)

theorem pairBytes_eq (name value : String) :
    pairBytes (name, value) =
      0x22 :: (encode (name.toList.flatMap escape) ++ [0x22]) ++ 0x3A :: ofString value := by
  have mark : ofString ":" = [0x3A] := by decide +kernel
  rw [pairBytes, ofString_append, ofString_append, string_bytes, mark, List.append_assoc]
  rfl

theorem object_bytes (fields : List (String × String)) :
    ofString (writeObject fields) = 0x7B :: (joined true (fields.map pairBytes) ++ [0x7D]) := by
  have opening : ofString "\x7b" = [0x7B] := by decide +kernel
  have closing : ofString "\x7d" = [0x7D] := by decide +kernel
  have bytes : ∀ f : String × String → String,
      (∀ pair, f pair = writeString pair.1 ++ ":" ++ pair.2) → ofString ∘ f = pairBytes := by
    intro f is
    funext pair
    simp only [Function.comp, pairBytes, is]
  rw [writeObject, ofString_append, ofString_append, opening, closing, joined_intercalate, List.map_map,
    bytes _ fun _ => rfl]
  rfl

theorem takes_moreKeys (s rest : Bytes) :
    Takes (moreKeys true) [] (0x22 :: s ++ rest) true ∧
      Takes (moreKeys false) [0x2C] (0x22 :: s ++ rest) true :=
  ⟨.look (.skipSpace rfl _) (.pure _ _),
    .look (.skipSpace rfl _) (.step (.advance _ _) (.look (.skipSpace rfl _) (.pure _ _)))⟩

theorem takes_readFields {all fields : List (Field σ)} {parts : List (FieldText σ)}
    (fits : List.Forall₂ FieldText.Fits fields parts)
    (known : ∀ f ∈ fields, all.find? (·.name == f.name) = some f)
    (distinct : (fields.map Field.name).Nodup) (rest : Bytes) :
    ∀ first seen fuel s, (∀ f ∈ fields, f.name ∉ seen) → fields.length < fuel →
      Takes (readFields all first seen s fuel) (joined first ((pairs fields parts).map pairBytes))
        (0x7D :: rest) (putAll parts s) := by
  induction fits with
  | nil =>
    rintro first seen (_ | fuel) s fresh enough
    · cases enough
    · have ends : Takes (moreKeys first) [] (0x7D :: rest) false := .look (.skipSpace rfl _) (.pure _ _)
      have left : joined first [] = [] := by cases first <;> rfl
      rw [pairs, List.zipWith_nil_left, List.map_nil, left]
      exact .last ends (.pure _ _)
  | @cons f p fields parts fit fits ih =>
    rintro first seen (_ | fuel) s fresh enough
    · cases enough
    · rw [List.map_cons, List.nodup_cons] at distinct
      have others := ih (fun g member => known g (.tail _ member)) distinct.2 false (f.name :: seen) fuel
        (p.put s) (by
          intro g member again
          rcases List.mem_cons.mp again with same | before
          · exact distinct.1 (same ▸ List.mem_map_of_mem member)
          · exact fresh g (.tail _ member) before) (Nat.lt_of_succ_lt_succ enough)
      have key := takes_string f.name (0x3A :: ofString p.text ++
        (joined false ((pairs fields parts).map pairBytes) ++ 0x7D :: rest))
      have value := fit s _ (ended_joined ((pairs fields parts).map pairBytes) (.inr rfl) rest)
      have new : seen.contains f.name = false := by simpa using fresh f (.head _)
      -- Whatever is done with a name, for this one it is to read the field that has it.
      have both : ∀ act : String → Reader σ, (act f.name = do
            colon
            let s ← f.read s
            readFields all false (f.name :: seen) s fuel) →
          Takes (string >>= act)
            ((encode (f.name.toList.flatMap escape) ++ [0x22]) ++ (0x3A :: (ofString p.text ++
              joined false ((pairs fields parts).map pairBytes)))) (0x7D :: rest) (putAll (p :: parts) s) := by
        intro act is
        refine .bind (by simpa using key) ?_
        rw [is]
        refine .step (.look (.skipSpace rfl _) (.advance _ _)) ?_
        exact .bind value others
      have bytes : pairBytes (f.name, p.text) ++ joined false ((pairs fields parts).map pairBytes) =
          0x22 :: ((encode (f.name.toList.flatMap escape) ++ [0x22]) ++ (0x3A :: (ofString p.text ++
            joined false ((pairs fields parts).map pairBytes)))) := by
        rw [pairBytes_eq]
        simp only [List.cons_append, List.append_assoc, List.nil_append]
      rw [show pairs (f :: fields) (p :: parts) = (f.name, p.text) :: pairs fields parts from rfl,
        List.map_cons]
      cases first with
      | true =>
        rw [joined, bytes]
        exact .look (takes_moreKeys _ _).1 (.step (.advance _ _) (both _ (by simp only [known f (.head _), new]; rfl)))
      | false =>
        rw [joined, bytes]
        exact .step (takes_moreKeys _ _).2 (.step (.advance _ _) (both _ (by simp only [known f (.head _), new]; rfl)))

theorem find?_name {name : ρ → String} {l : List ρ} (distinct : (l.map name).Nodup) {a : ρ}
    (member : a ∈ l) : l.find? (name · == name a) = some a := by
  induction l with
  | nil => cases member
  | cons b l ih =>
    rw [List.map_cons, List.nodup_cons] at distinct
    rcases List.mem_cons.mp member with rfl | later
    · exact List.find?_cons_of_pos (beq_self_eq_true _)
    · have other : name b ≠ name a := by
        intro same
        exact distinct.1 (same ▸ List.mem_map_of_mem later)
      rw [List.find?_cons_of_neg (by simpa using other), ih distinct.2 later]

/-- A structure that is written field by field is read as its fields say. -/
theorem reads_structure {fields : List (Field σ)} {parts : List (FieldText σ)}
    (fits : List.Forall₂ FieldText.Fits fields parts) (distinct : (fields.map Field.name).Nodup)
    (name : String) (default : σ) :
    Reads (readStructure name fields default) (ofString (writeObject (pairs fields parts)))
      (putAll parts default) := by
  intro rest _
  have known : ∀ f ∈ fields, fields.find? (·.name == f.name) = some f := fun _ => find?_name distinct
  have begun : ∀ s ∈ (pairs fields parts).map pairBytes, Begun s := by
    intro s member
    obtain ⟨⟨name, value⟩, _, rfl⟩ := List.mem_map.mp member
    rw [pairBytes_eq]
    exact .intro rfl (by decide) (by decide) _
  have paired : (pairs fields parts).length = fields.length := by
    rw [pairs, List.length_zipWith, ← fits.length_eq, Nat.min_self]
  have enough := length_joined begun true
  rw [List.length_map, paired] at enough
  rw [object_bytes]
  refine .look (.valueStart rfl _) (.step (.advance _ _) (.get fun n => ?_))
  refine .bind (takes_readFields fits known distinct rest true [] _ default (by simp) ?_) ?_
  · simp only [List.length_append]
    omega
  · exact .last (.look (.skipSpace rfl _) (.advance _ _)) (.pure _ _)

end Structures

theorem reads_interpreter (s : InterpreterSettings) :
    Reads InterpreterSettings.read (ofString s.toJson) s := by
  have optional (o : Option UInt64) := reads_optional restores_wordSize o
  have fits : List.Forall₂ FieldText.Fits InterpreterSettings.fields
      [⟨writeOption writeLimit s.memoryLimit, ({ · with memoryLimit := s.memoryLimit })⟩,
        ⟨writeOption writeLimit s.maxStackSize, ({ · with maxStackSize := s.maxStackSize })⟩,
        ⟨writeOption writeLimit s.gcThreshold, ({ · with gcThreshold := s.gcThreshold })⟩] :=
    .cons (fun _ rest ended => (optional s.memoryLimit rest ended).map _) <|
      .cons (fun _ rest ended => (optional s.maxStackSize rest ended).map _) <|
      .cons (fun _ rest ended => (optional s.gcThreshold rest ended).map _) .nil
  exact reads_structure fits (by decide) "InterpreterSettings" {}

theorem reads_owner (s : OwnerSettings) : Reads OwnerSettings.read (ofString s.toJson) s := by
  have name := reads_optional (restores_text "a string") s.name
  have file := reads_optional (restores_text "path string") s.file
  have fits : List.Forall₂ FieldText.Fits OwnerSettings.fields
      [⟨writeOption writeString s.name, ({ · with name := s.name })⟩,
        ⟨writeBool s.debug, ({ · with debug := s.debug })⟩,
        ⟨writeOption writeString s.file, ({ · with file := s.file })⟩] :=
    .cons (fun _ rest ended => (name rest ended).map _) <|
      .cons (fun _ rest ended => (reads_bool s.debug rest ended).map _) <|
      .cons (fun _ rest ended => (file rest ended).map _) .nil
  exact reads_structure fits (by decide) "OwnerSettings" {}

theorem reads_settings (s : Settings) : Reads Settings.read (ofString s.toJson) s := by
  have paths := reads_list (restores_text "path string") s.searchPaths
  have fits : List.Forall₂ FieldText.Fits Settings.fields
      [⟨s.interpreter.toJson, ({ · with interpreter := s.interpreter })⟩,
        ⟨writeList writeString s.searchPaths, ({ · with searchPaths := s.searchPaths })⟩,
        ⟨s.owner.toJson, ({ · with owner := s.owner })⟩] :=
    .cons (fun _ rest ended => (reads_interpreter s.interpreter rest ended).map _) <|
      .cons (fun _ rest ended => (paths rest ended).map _) <|
      .cons (fun _ rest ended => (reads_owner s.owner rest ended).map _) .nil
  exact reads_structure fits (by decide) "Settings" {}

def entire {α : Type} (p : Reader α) : Reader α := do
  let a ← p
  match ← skipSpace with
  | none => return a
  | some _ => failNext .trailingCharacters

theorem whole_eq {α : Type} (p : Reader α) (s : Bytes) : whole p s = (entire p ⟨0, s⟩).map Prod.fst := by
  have run : whole p s = (entire p ⟨0, s⟩).bind fun read => .ok read.1 := rfl
  rw [run]
  cases entire p ⟨0, s⟩ <;> rfl

def Agrees {ε α : Type} (result : Except ε α) : Option α → Prop
  | some a => result = .ok a
  | none => ∃ e, result = .error e

theorem Agrees.ok_iff {ε α : Type} {result : Except ε α} {o : Option α} (agrees : Agrees result o) (a : α) :
    result = .ok a ↔ o = some a := by
  cases o with
  | some b => rw [show result = .ok b from agrees, Except.ok.injEq, Option.some.injEq]
  | none =>
    obtain ⟨e, rfl⟩ := agrees
    exact ⟨nofun, nofun⟩

/-- A text is read as what the reader settles on for it, if no more than blanks are left. -/
theorem whole_settles {α : Type} {p : Reader α} {s h : Bytes} {o : Option α} (settles : Settles p s h o)
    (blank : Blank h) : Agrees (whole p (s ++ h)) o := by
  have reading : Settles (entire p) (s ++ h) [] o :=
    .close (by rwa [List.append_nil]) fun a => .last (.skipBlanks blank rfl) (.pure a [])
  rw [← List.append_nil (s ++ h)]
  cases o with
  | some a =>
    have read := reading 0
    simp only [whole_eq, read]
    rfl
  | none =>
    obtain ⟨failure, failed⟩ := reading 0
    exact ⟨failure, by rw [whole_eq, failed]; rfl⟩

theorem whole_reads {α : Type} {p : Reader α} {s : Bytes} {a : α} (reads : Reads p s a) :
    whole p s = .ok a := by
  have read := whole_settles (o := some a) (reads [] .nil) blank_nil
  rwa [List.append_nil] at read

theorem parse_toJson (s : Settings) : Settings.parse s.toJson = .ok s := by
  simp only [Settings.parse, Settings.ofJson, whole_reads (reads_settings s)]

/-- Settings that are saved are loaded as they were. So are those that any text gave, and saving them
again gives the same text. -/
theorem settings_survive :
    (∀ s : Settings, Settings.parse s.toJson = .ok s) ∧
      ∀ (text : String) (s : Settings), Settings.parse text = .ok s →
        ∃ t, Settings.parse s.toJson = .ok t ∧ t = s ∧ t.toJson = s.toJson :=
  ⟨parse_toJson, fun _ s _ => ⟨s, parse_toJson s, rfl, rfl⟩⟩

/-- What is absent takes its default, and the default is written out. -/
theorem absent_debug_survives :
    let s : Settings := { owner := { name := some "\\\"" } }
    let text := "\x7b\"owner\": \x7b\"name\": \"\\\\\\u0022\"\x7d\x7d"
    Settings.parse text = .ok s ∧
      ∃ t, Settings.parse s.toJson = .ok t ∧ t = s ∧ t.toJson = s.toJson := by
  intro s text
  have read : Settings.parse text = .ok s := by decide +kernel
  exact ⟨read, settings_survive.2 text s read⟩

end Patchbay
