import Patchbay.Namespace
import Patchbay.Proofs.Files
import Patchbay.Proofs.Text.Utf8
import Mathlib.Data.List.TakeWhile

/-!
Blank texts. An expression is held to be missing if it is nothing but blank characters, of whatever script;
statements are judged by their bytes, of which five are blank. The two tests part at a blank text in which
there is a vertical tab or a blank outside ASCII: it is refused as an expression and run as statements.
-/
namespace Patchbay

open Text

namespace Text

def plainBlanks : List Char := [' ', '\t', '\n', '\x0c', '\r']

theorem isBlank_of_plain : ∀ c ∈ plainBlanks, isBlank c = true :=
  List.all_eq_true.mp (by decide)

theorem trim_eq_nil_iff {s : List Char} : trim s = [] ↔ isAllBlank s = true := by
  rw [trim, trimEnd, trimStart, List.reverse_eq_nil_iff, List.dropWhile_eq_nil_iff, isAllBlank,
    List.all_eq_true]
  constructor
  · intro behind c member
    by_cases before : c ∈ s.takeWhile isBlank
    · exact List.all_eq_true.mp List.all_takeWhile c before
    · have parts : c ∈ s.takeWhile isBlank ++ s.dropWhile isBlank := by
        rwa [List.takeWhile_append_dropWhile]
      exact behind c (List.mem_reverse.mpr ((List.mem_append.mp parts).resolve_left before))
  · intro blank c member
    exact blank c ((List.dropWhile_sublist _).subset (List.mem_reverse.mp member))

theorem isBlankByte_iff (b : UInt8) :
    isBlankByte b = true ↔ b.toNat = 0x20 ∨ b.toNat = 0x09 ∨ b.toNat = 0x0A ∨ b.toNat = 0x0C ∨
      b.toNat = 0x0D := by
  simp only [isBlankByte, Bool.or_eq_true, beq_iff_eq, ← UInt8.toNat_inj, or_assoc]
  rfl

theorem mem_plainBlanks {c : Char} :
    c ∈ plainBlanks ↔ c.toNat = 0x20 ∨ c.toNat = 0x09 ∨ c.toNat = 0x0A ∨ c.toNat = 0x0C ∨
      c.toNat = 0x0D := by
  simp only [plainBlanks, List.mem_cons, List.not_mem_nil, or_false, ← Char.toNat_inj]
  rfl

theorem blank_bytes_char (c : Char) :
    (∀ b ∈ String.utf8EncodeChar c, isBlankByte b = true) ↔ c ∈ plainBlanks := by
  have valid : c.toNat < 0xD800 ∨ 0xDFFF < c.toNat ∧ c.toNat < 0x110000 := c.valid
  rw [mem_plainBlanks]
  unfold String.utf8EncodeChar
  dsimp only
  rw [← Char.toNat.eq_1]
  generalize c.toNat = n at valid
  simp only [isBlankByte_iff]
  split_ifs
  · rw [List.forall_mem_singleton, Utf8.toNat_byte (by omega)]
  · rw [List.forall_mem_cons, Utf8.toNat_byte (by omega)]
    omega
  · rw [List.forall_mem_cons, Utf8.toNat_byte (by omega)]
    omega
  · rw [List.forall_mem_cons, Utf8.toNat_byte (by omega)]
    omega

theorem blank_bytes_iff (s : List Char) :
    (Utf8.encode s).all isBlankByte = true ↔ ∀ c ∈ s, c ∈ plainBlanks := by
  simp only [List.all_eq_true, Utf8.encode, List.mem_flatMap, ← blank_bytes_char]
  constructor
  · intro blank c member b inside
    exact blank b ⟨c, member, inside⟩
  · rintro blank b ⟨c, member, inside⟩
    exact blank c member b inside

theorem blank_uniform {content text : Utf8.Bytes} (uniform : Files.Uniform content text) :
    text.all isBlankByte = content.all isBlankByte := by
  induction uniform with
  | done => rfl
  | pair _ ih =>
    rw [List.all_cons, List.all_cons, List.all_cons, ih]
    rfl
  | lone _ _ ih =>
    rw [List.all_cons, List.all_cons, ih]
    rfl
  | other b _ _ ih => rw [List.all_cons, List.all_cons, ih]

end Text

namespace Namespace

/-- Asked for this, a namespace reports that there is no source, and nothing else happens. -/
def Spurns {α : Type} (ask : Namespace → Answer α) : Prop :=
  ∃ operation subject, ∀ n, ask n = n.refuse operation subject missingSource

/-- Asked for this, a namespace has the engine do something, the same in whatever state it is. -/
def Enters {α : Type} (ask : Namespace → Answer α) : Prop :=
  ∃ (β : Type) (operation subject : String) (body : ExceptT Script.Fault Script.Run β),
    ∀ n, (ask n).after = (n.attempt operation subject body).after

theorem attempt_drained {α : Type} (n : Namespace) (operation subject : String)
    (body : ExceptT Script.Fault Script.Run α) :
    (n.attempt operation subject body).after.machine.posts = [] := by
  unfold attempt
  split <;> rfl

/-- What scripts have posted is taken up whenever the engine was entered, and stays after a refusal. -/
theorem Enters.not_spurns {α : Type} {ask : Namespace → Answer α} (enters : Enters ask) : ¬ Spurns ask := by
  rintro ⟨operation, subject, spurned⟩
  obtain ⟨β, operation', subject', body, entered⟩ := enters
  let posted : Namespace := ⟨default, { Script.Machine.initial with posts := [default] }⟩
  have drained := attempt_drained posted operation' subject' body
  rw [← entered posted, spurned posted] at drained
  cases drained

theorem evaluate_spurns {source : String} (blank : trim source.toList = []) :
    Spurns fun n => n.evaluate source := by
  refine ⟨"eval", source, fun n => ?_⟩
  simp only [evaluate, if_pos (trim_eq_nil_iff.mp blank)]

theorem evaluate_enters {source : String} (some : trim source.toList ≠ []) :
    Enters fun n => n.evaluate source := by
  refine ⟨_, "eval", source, liftBytes (parenthesized source), fun n => ?_⟩
  simp only [evaluate, if_neg (mt trim_eq_nil_iff.mpr some)]
  split <;> rfl

theorem runStatements_spurns (operation subject : String) {bytes : Utf8.Bytes}
    (blank : bytes.all isBlankByte = true) : Spurns fun n => n.runStatements operation subject bytes := by
  refine ⟨operation, subject, fun n => ?_⟩
  simp only [runStatements, if_pos blank]

theorem runStatements_enters (operation subject : String) {bytes : Utf8.Bytes}
    (some : ¬ bytes.all isBlankByte = true) : Enters fun n => n.runStatements operation subject bytes := by
  refine ⟨Unit, operation, subject, do let _ ← runBytes bytes false, fun n => ?_⟩
  simp only [runStatements, if_neg some]

/-- Said of each way to run statements: given ones, those of an editor, and those of a file. -/
structure Statements (P : (Namespace → Answer Unit) → Prop) (source name path : String)
    (files : Files.Tree) : Prop where
  given : P fun n => n.execute source
  edited : P fun n => n.executeBuffer name source
  stored : P fun n => n.executeFile files path

section Modes

variable {source path : String} {files : Files.Tree} (named : path ≠ "")
  (read : files.read path = .ok (Utf8.ofString source)) (name : String)
include named read

theorem executeFile_eq (n : Namespace) :
    n.executeFile files path =
      n.runStatements "execfile" path (Files.normalize (Utf8.ofString source)) := by
  rw [executeFile, if_neg (by simpa using named), Files.readText, read]

theorem statements_spurn (blank : ∀ c ∈ source.toList, c ∈ plainBlanks) :
    Statements Spurns source name path files := by
  have bytes : (Utf8.ofString source).all isBlankByte = true := (blank_bytes_iff _).mpr blank
  refine ⟨runStatements_spurns _ _ bytes, runStatements_spurns _ _ bytes, ?_⟩
  simp only [executeFile_eq named read]
  exact runStatements_spurns _ _ ((blank_uniform (Files.uniform_normalize _)).trans bytes)

theorem statements_enter (some : ∃ c ∈ source.toList, c ∉ plainBlanks) :
    Statements Enters source name path files := by
  have bytes : ¬ (Utf8.ofString source).all isBlankByte = true := by
    rw [Utf8.ofString, blank_bytes_iff]
    push Not
    exact some
  refine ⟨runStatements_enters _ _ bytes, runStatements_enters _ _ bytes, ?_⟩
  simp only [executeFile_eq named read]
  exact runStatements_enters _ _ (by rwa [blank_uniform (Files.uniform_normalize _)])

/-- A text of plain blanks is spurned however it is asked for, and one that is not blank has the engine
entered; what is blank and has another character in it is spurned as an expression only. -/
theorem blank_texts_refused :
    ((∀ c ∈ source.toList, c ∈ plainBlanks) →
        Spurns (fun n => n.evaluate source) ∧ Statements Spurns source name path files) ∧
      (trim source.toList ≠ [] →
        Enters (fun n => n.evaluate source) ∧ Statements Enters source name path files) ∧
      (trim source.toList = [] → (∃ c ∈ source.toList, c ∉ plainBlanks) →
        Spurns (fun n => n.evaluate source) ∧ Statements Enters source name path files) := by
  refine ⟨fun plain => ⟨evaluate_spurns ?_, statements_spurn named read name plain⟩,
    fun some => ⟨evaluate_enters some, statements_enter named read name ?_⟩,
    fun blank other => ⟨evaluate_spurns blank, statements_enter named read name other⟩⟩
  · rw [trim_eq_nil_iff, isAllBlank, List.all_eq_true]
    exact fun c member => isBlank_of_plain c (plain c member)
  · rw [Ne, trim_eq_nil_iff, isAllBlank, List.all_eq_true] at some
    push Not at some
    obtain ⟨c, member, solid⟩ := some
    exact ⟨c, member, fun plain => solid (isBlank_of_plain c plain)⟩

end Modes

/-- A file that holds a line break, by a carriage return and a line feed, and nothing else. -/
theorem blank_file_spurned :
    ∃ files : Files.Tree, files.read "a" = .ok (Utf8.ofString "\r\n") ∧
      Spurns (fun n => n.evaluate "\r\n") ∧ Statements Spurns "\r\n" "" "a" files := by
  refine ⟨⟨[(["a"], .file (Utf8.ofString "\r\n"))], []⟩, by decide +kernel, ?_⟩
  exact (blank_texts_refused (by decide) (by decide +kernel) "").1 (by simp [plainBlanks])

/-- A vertical tab is blank, and is run when it is given as statements. -/
theorem vertical_tab_run :
    trim "\x0b".toList = [] ∧ (Spurns fun n => n.evaluate "\x0b") ∧ ¬ Spurns fun n => n.execute "\x0b" := by
  have blank : trim "\x0b".toList = [] := by decide +kernel
  refine ⟨blank, evaluate_spurns blank, (runStatements_enters _ _ ?_).not_spurns⟩
  decide +kernel

end Namespace

end Patchbay
