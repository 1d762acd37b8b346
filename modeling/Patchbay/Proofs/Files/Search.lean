import Patchbay.Console
import Patchbay.Proofs.Files

/-!
Where script files are found. The paths at which a name is looked for are tried in order, and the first that
leads to a file is taken. Roots that come later, and roots without the file, are never seen. A root that is
joined with a name leads where the name leads from the root.
-/
namespace Patchbay.Files

open Text.Utf8

variable {t : Tree} {name path : String}

namespace Tree

def HasFile (t : Tree) (path : String) : Prop := ∃ content, t.resolve path = .ok (.file content)

theorem isFile_iff : t.isFile path = true ↔ t.HasFile path := by
  unfold isFile HasFile
  split
  · rename_i content found
    simp [found]
  · rename_i other
    simpa using other

theorem HasFile.readText (file : t.HasFile path) : ∃ text, readText t path = .ok text := by
  obtain ⟨content, found⟩ := file
  have read : t.read path = .ok content := by rw [read, found]
  exact ⟨_, by rw [Files.readText, read]⟩

def reach (t : Tree) (place : Place) (node : Node) : List String → Except SystemError (Place × Node)
  | [] => .ok (place, node)
  | name :: rest =>
    match node with
    | .file _ => .error .notDirectory
    | .directory =>
      if name.isEmpty then t.reach place node rest
      else do
        let (place, node) ← t.enter place name
        t.reach place node rest

def start (path : String) : Place := if isAbsolute path then .outside else .below []

/-- What a name leads to from where a root leads. -/
def under (t : Tree) (root name : String) : Except SystemError Node := do
  let (place, node) ← t.reach (start root) .directory (components root.toList)
  t.walk place node (components name.toList)

theorem walk_append (place : Place) (node : Node) (first rest : List String) :
    t.walk place node (first ++ rest) = t.reach place node first >>= fun p => t.walk p.1 p.2 rest := by
  induction first generalizing place node with
  | nil => rfl
  | cons name first ih =>
    cases node with
    | file content => rfl
    | directory =>
      rw [List.cons_append, walk, reach]
      split
      · exact ih ..
      · rw [bind_assoc]
        exact bind_congr fun p => ih ..

theorem reach_slash (place : Place) (node : Node) (first : List String) (name : String) (rest : List String) :
    (t.reach place node (first ++ [""]) >>= fun p => t.walk p.1 p.2 (name :: rest)) =
      t.reach place node first >>= fun p => t.walk p.1 p.2 (name :: rest) := by
  rw [← walk_append, ← walk_append, List.append_assoc, walk_append, walk_append]
  refine bind_congr fun p => ?_
  obtain ⟨place, node⟩ := p
  cases node with
  | file content => rfl
  | directory => rfl

theorem components_ne_nil (path : List Char) : components path ≠ [] := by
  simp [components, List.splitOn_ne_nil]

theorem components_slash (first rest : List Char) :
    components (first ++ '/' :: rest) = components first ++ components rest := by
  rw [components, List.splitOn_append_cons_self, List.map_append]
  rfl

end Tree

theorem join_cases (root path : String) :
    root = "" ∧ join root path = path ∨
      ∃ first, (root ≠ "" ∧ root.toList = first ∨ root.toList = first ++ ['/']) ∧
        (join root path).toList = first ++ '/' :: path.toList := by
  unfold join
  split
  · rename_i none
    exact .inl ⟨String.isEmpty_iff.mp none, rfl⟩
  · rename_i some
    split
    · rename_i slash
      obtain ⟨first, same⟩ := List.getLast?_eq_some_iff.mp (by simpa using slash)
      exact .inr ⟨first, .inr same, by simp [same]⟩
    · exact .inr ⟨root.toList, .inl ⟨by simpa using some, rfl⟩, by simp⟩

theorem start_join (root : String) (relative : Tree.isAbsolute name = false) :
    Tree.start (join root name) = Tree.start root := by
  obtain ⟨rfl, whole⟩ | ⟨first, parts, whole⟩ := join_cases root name
  · rw [whole, Tree.start, relative]
    rfl
  · have same : (join root name).toList.head? = root.toList.head? := by
      rw [whole]
      obtain ⟨some, rfl⟩ | slash := parts
      · obtain ⟨c, rest, spelled⟩ := List.exists_cons_of_ne_nil (l := root.toList) (by simpa using some)
        rw [spelled]
        rfl
      · rw [slash]
        cases first <;> rfl
    rw [Tree.start, Tree.isAbsolute, same]
    rfl

/-- The system takes a path for what its components say: no more was seen of it, no NUL is in it, and it is
not too long. -/
structure Tree.Plain (t : Tree) (path : String) : Prop where
  unseen : t.seen.lookup path = none
  textual : '\x00' ∉ path.toList
  short : path.utf8ByteSize ≤ Tree.pathLimit

theorem Tree.Plain.resolve (plain : t.Plain path) (some : path ≠ "") :
    t.resolve path = t.walk (start path) .directory (components path.toList) := by
  have textual : path.toList.contains '\x00' = false := by simpa using plain.textual
  have given : path.isEmpty = false := by simpa using some
  unfold Tree.resolve
  simp only [plain.unseen, textual, given, Bool.false_eq_true, if_false]
  rw [if_neg (Nat.not_lt.mpr plain.short)]
  rfl

/-- A joined path leads where the name leads from the root. -/
theorem resolve_join {root : String} (named : name ≠ "") (relative : Tree.isAbsolute name = false)
    (plain : t.Plain (join root name)) : t.resolve (join root name) = t.under root name := by
  rw [plain.resolve (join_ne_empty named), start_join root relative]
  change _ = t.reach (Tree.start root) .directory (Tree.components root.toList) >>= fun p =>
    t.walk p.1 p.2 (Tree.components name.toList)
  obtain ⟨rfl, whole⟩ | ⟨first, parts, whole⟩ := join_cases root name
  · rw [whole]
    rfl
  · rw [whole, Tree.components_slash, Tree.walk_append]
    obtain ⟨_, rfl⟩ | slash := parts
    · rfl
    · obtain ⟨n, rest, spelled⟩ := List.exists_cons_of_ne_nil (Tree.components_ne_nil name.toList)
      rw [slash, Tree.components_slash, spelled]
      exact (Tree.reach_slash ..).symm

theorem locate_eq (t : Tree) (roots : List String) (named : name ≠ "") :
    locate t roots name = ((candidates roots name).find? t.isFile).elim (.error (.notFound name)) .ok := by
  rw [locate, if_neg (by simpa using named)]
  cases (candidates roots name).find? t.isFile <;> rfl

theorem locate_ok_iff {roots : List String} (named : name ≠ "") :
    locate t roots name = .ok path ↔ (candidates roots name).find? t.isFile = some path := by
  rw [locate_eq t roots named]
  cases (candidates roots name).find? t.isFile <;> simp

theorem locate_error_iff {roots : List String} (named : name ≠ "") {e : FileError} :
    locate t roots name = .error e ↔
      e = .notFound name ∧ (candidates roots name).find? t.isFile = none := by
  rw [locate_eq t roots named]
  cases (candidates roots name).find? t.isFile <;> simp [eq_comm]

theorem candidates_append (roots more : List String) (name : String) :
    ∃ others, candidates (roots ++ more) name = candidates roots name ++ others := by
  unfold candidates
  split
  · exact ⟨[], rfl⟩
  · exact ⟨more.map fun root => join root name, by simp⟩

theorem locate_append {roots : List String} (located : locate t roots name = .ok path)
    (more : List String) : locate t (roots ++ more) name = .ok path := by
  have named : name ≠ "" := by
    rintro rfl
    cases located
  obtain ⟨others, longer⟩ := candidates_append roots more name
  rw [locate_ok_iff named] at located ⊢
  rw [longer, List.find?_append, located]
  rfl

theorem locate_without (named : name ≠ "") {root : String}
    (lacking : Tree.isAbsolute name = false → t.isFile (join root name) = false)
    (before after : List String) :
    locate t (before ++ after) name = locate t (before ++ root :: after) name := by
  rw [locate_eq t _ named, locate_eq t _ named]
  unfold candidates
  cases absolute : Tree.isAbsolute name with
  | true => rfl
  | false =>
    simp only [Bool.false_eq_true, if_false, List.map_append, List.map_cons, List.find?_cons,
      List.find?_append, lacking absolute]

theorem start_searched {o : CommandLine.Options} {files : Tree} {c : Console}
    (started : Console.start { o with searchPaths := [] } files = .ok c) :
    ∃ d, Console.start o files = .ok d ∧ d.host.roots = c.host.roots ++ o.searchPaths := by
  unfold Console.start at started ⊢
  split at started
  · rename_i none
    cases started
    rw [none]
    exact ⟨_, rfl, by simp [Console.ofSettings]⟩
  · rename_i path given
    rw [given]
    split at started
    · rename_i s loaded
      cases started
      simp only [loaded]
      exact ⟨_, rfl, by simp [Console.ofSettings]⟩
    · cases started

/-- A name is found at the first of its paths that leads to a file, which can then be read: at the name
itself, or, if that is relative, at the name below the roots in turn. Only if there is none it is not found.
Roots that are added at the end, as those of the command line are, change nothing for a name that is found,
and a root below which the name is no file changes nothing by going. -/
theorem locate_first (t : Tree) (roots : List String) {name : String} (named : name ≠ "") :
    let paths := name :: if Tree.isAbsolute name then [] else roots.map fun root => join root name
    (∀ path, locate t roots name = .ok path ↔
        ∃ before after, paths = before ++ path :: after ∧ t.HasFile path ∧
          ∀ other ∈ before, ¬ t.HasFile other) ∧
      (∀ e, locate t roots name = .error e ↔ e = .notFound name ∧ ∀ path ∈ paths, ¬ t.HasFile path) ∧
      (∀ path, locate t roots name = .ok path → ∃ text, readText t path = .ok text) ∧
      (∀ path more, locate t roots name = .ok path → locate t (roots ++ more) name = .ok path) ∧
      (∀ o files c, Console.start { o with searchPaths := [] } files = .ok c → c.host.roots = roots →
        ∃ d, Console.start o files = .ok d ∧
          ∀ path, locate t roots name = .ok path → locate t d.host.roots name = .ok path) ∧
      (∀ before root after, roots = before ++ root :: after →
        (Tree.isAbsolute name = false → ¬ t.HasFile (join root name)) →
          locate t (before ++ after) name = locate t roots name) ∧
      ∀ root, Tree.isAbsolute name = false → t.Plain (join root name) →
        t.resolve (join root name) = t.under root name := by
  intro paths
  have first (path : String) : locate t roots name = .ok path ↔
      ∃ before after, paths = before ++ path :: after ∧ t.HasFile path ∧
        ∀ other ∈ before, ¬ t.HasFile other := by
    rw [locate_ok_iff named, List.find?_eq_some_iff_append]
    simp only [Bool.not_eq_true', ← Bool.not_eq_true, Tree.isFile_iff]
    exact ⟨fun ⟨file, before, after, same, lacking⟩ => ⟨before, after, same, file, lacking⟩,
      fun ⟨before, after, same, file, lacking⟩ => ⟨file, before, after, same, lacking⟩⟩
  refine ⟨first, fun e => ?_, fun path located => ?_, fun path more located => locate_append located more,
    ?_, ?_, fun root relative plain => resolve_join named relative plain⟩
  · rw [locate_error_iff named, List.find?_eq_none]
    simp only [Tree.isFile_iff]
    rfl
  · obtain ⟨_, _, _, file, _⟩ := (first path).mp located
    exact file.readText
  · rintro o files c started rfl
    obtain ⟨d, begun, longer⟩ := start_searched started
    exact ⟨d, begun, fun path located => longer ▸ locate_append located _⟩
  · rintro before root after rfl lacking
    refine locate_without named (fun relative => ?_) before after
    rw [← Bool.not_eq_true, Tree.isFile_iff]
    exact lacking relative

/-- Below the first root stands a directory of the name, which the file below the second one is found
behind, with or without the first root and whatever comes later. -/
theorem shadowed_name_located :
    let t : Tree := { entries := [(["a"], .directory), (["a", "x.js"], .directory), (["b"], .directory),
      (["b", "x.js"], .file [0x31])] }
    "x.js" ≠ "" ∧ t.resolve "a/x.js" = .ok .directory ∧
      locate t ["a", "./b/"] "x.js" = .ok "./b/x.js" ∧ locate t ["a", "./b/", ""] "x.js" = .ok "./b/x.js" ∧
      locate t ["./b/"] "x.js" = .ok "./b/x.js" ∧ t.under "./b/" "x.js" = .ok (.file [0x31]) := by
  intro t
  have named : "x.js" ≠ "" := by decide
  obtain ⟨first, _, _, longer, _, without, below⟩ := locate_first t ["a", "./b/"] named
  have directory : t.resolve "a/x.js" = .ok .directory := rfl
  have file : t.resolve "./b/x.js" = .ok (.file [0x31]) := rfl
  have lacking : ¬ t.HasFile "a/x.js" := by
    rintro ⟨content, found⟩
    cases directory.symm.trans found
  have located : locate t ["a", "./b/"] "x.js" = .ok "./b/x.js" := by
    refine (first "./b/x.js").mpr ⟨["x.js", "a/x.js"], [], rfl, ⟨_, file⟩, ?_⟩
    rintro other member ⟨content, found⟩
    simp only [List.mem_cons, List.not_mem_nil, or_false] at member
    obtain rfl | rfl := member
    · cases found
    · exact lacking ⟨content, found⟩
  have plain : t.Plain (join "./b/" "x.js") := ⟨rfl, by decide, by decide⟩
  exact ⟨named, directory, located, longer _ [""] located,
    (without [] "a" ["./b/"] rfl fun _ => lacking).trans located, (below "./b/" rfl plain).symm.trans file⟩

end Patchbay.Files
