import Obsidian.Api
import Obsidian.Data.Memo
import Obsidian.Operators.Builders

namespace Obsidian

open Obsidian.Data

/-! # Memoized builders

`memoize.Do` keeps one table for the process, from a text to whatever the first builder
asked for under it has built.  Compilations of every WAF go through it one after the other.
-/

/-! ## Builders -/

structure Libraries where
  Regexp : Type
  BinaryRegexp : Type
  Matcher : Type
  Schema : Type
  compile : Bytes → Except GoError Regexp
  compileBinary : Bytes → Except GoError BinaryRegexp
  build : (words : List Bytes) → (dfa : Bool) → Matcher
  compileSchema : Bytes → Except GoError Schema

inductive Built (lib : Libraries) where
  | regexp (object : lib.Regexp)
  | binaryRegexp (object : lib.BinaryRegexp)
  | matcher (object : lib.Matcher)
  | schema (object : lib.Schema)

inductive BuiltType where
  | regexp | binaryRegexp | matcher | schema
deriving DecidableEq, Repr

def Built.type {lib : Libraries} : Built lib → BuiltType
  | .regexp _ => .regexp
  | .binaryRegexp _ => .binaryRegexp
  | .matcher _ => .matcher
  | .schema _ => .schema

namespace Source

/-- The type that the caller asserts the object to have. -/
def type : Source → BuiltType
  | .regexp _ => .regexp
  | .binaryRegexp _ => .binaryRegexp
  | .dictionary .. => .matcher
  | .schema _ => .schema

def build (lib : Libraries) : Source → Except GoError (Built lib)
  | .regexp expr => (lib.compile expr).map .regexp
  | .binaryRegexp expr => (lib.compileBinary expr).map .binaryRegexp
  | .dictionary words dfa => .ok (.matcher (lib.build words dfa))
  | .schema data => (lib.compileSchema data).map .schema

theorem build_type {lib : Libraries} {source : Source} {object : Built lib}
    (built : source.build lib = .ok object) : object.type = source.type := by
  cases source with
  | regexp expr =>
    simp only [build] at built
    cases compiled : lib.compile expr <;> rw [compiled] at built <;> cases built
    rfl
  | binaryRegexp expr =>
    simp only [build] at built
    cases compiled : lib.compileBinary expr <;> rw [compiled] at built <;> cases built
    rfl
  | dictionary words dfa =>
    cases built
    rfl
  | schema data =>
    simp only [build] at built
    cases compiled : lib.compileSchema data <;> rw [compiled] at built <;> cases built
    rfl

end Source

/-! ## Compilations -/

/-- One compilation that may ask `memoize.Do`, with all that it reads. -/
inductive Compilation where
  | rx (arguments : Bytes)
  | pm (arguments : Bytes)
  | pmFromFile (path : List Bytes) (root : Operators.FileSystem) (filepath : Bytes)
  | pmFromDataset (datasets : AList fun _ : Bytes => List Bytes) (data : Bytes)
  | restpath (arguments : Bytes)
  | validateNid (arguments : Bytes)
  | validateSchema (root : Operators.FileSystem) (schemaPath : Bytes)
  | selector (key : Bytes)
  | auditLogRelevantStatus (opts : Bytes)

structure Build where
  rt : Runtime
  quote : Bytes → Bytes
  noMultiline : Bool
  lib : Libraries

abbrev MemoTable (lib : Libraries) := AList fun _ : Bytes => Built lib

/-- How a compilation ends.  A selector that is no expression builds nothing. -/
inductive Compiled (lib : Libraries) where
  | failed (err : GoError)
  | nothing
  | object (built : Built lib)
  | panicked

namespace Build

variable (b : Build)

/-- What a compilation asks `memoize.Do` for, if it gets that far. -/
def request : Compilation → Except GoError (Option MemoRequest)
  | .rx arguments => .ok (some (Operators.newRX b.noMultiline arguments))
  | .pm arguments => .ok (some (Operators.newPM b.rt arguments))
  | .pmFromFile path root filepath => (Operators.newPMFromFile b.rt path root filepath).map some
  | .pmFromDataset datasets data => (Operators.newPMFromDataset b.quote datasets data).map some
  | .restpath arguments => .ok (some (Operators.newRESTPath arguments))
  | .validateNid arguments => (Operators.newValidateNID arguments).map fun nid => some nid.2
  | .validateSchema root schemaPath => (Operators.newValidateSchema b.rt root schemaPath).map some
  | .selector key => .ok (Operators.selector key)
  | .auditLogRelevantStatus opts => (Operators.auditLogRelevantStatus opts).map some

def entry (request : MemoRequest) : Bytes × Except GoError (Built b.lib) :=
  (request.key, request.source.build b.lib)

/-- The type assertion on what `memoize.Do` returned. -/
def assertType (type : BuiltType) : Except GoError (Built b.lib) → Compiled b.lib
  | .error err => .failed err
  | .ok object => if object.type = type then .object object else .panicked

def compile (table : MemoTable b.lib) (c : Compilation) : MemoTable b.lib × Compiled b.lib :=
  match b.request c with
  | .error err => (table, .failed err)
  | .ok none => (table, .nothing)
  | .ok (some request) =>
    (Memo.attempt table (b.entry request),
      b.assertType request.source.type (Memo.answer table (b.entry request)))

def compileDirectly (c : Compilation) : Compiled b.lib :=
  match b.request c with
  | .error err => .failed err
  | .ok none => .nothing
  | .ok (some request) => b.assertType request.source.type (request.source.build b.lib)

def process (cs : List Compilation) : MemoTable b.lib :=
  cs.foldl (fun table c => (b.compile table c).1) ∅

def requests (cs : List Compilation) : List MemoRequest :=
  cs.filterMap fun c => ((b.request c).toOption).join

/-- Of two requests with one key, the second builds what the first has built. -/
def BuildAlike (first second : MemoRequest) : Prop :=
  first.key = second.key → ∀ object, first.source.build b.lib = .ok object →
    second.source.build b.lib = .ok object

variable {b}

theorem process_eq (cs : List Compilation) :
    b.process cs = Memo.attempts ((b.requests cs).map b.entry) := by
  simp only [process, Memo.attempts, requests, List.foldl_map, List.foldl_filterMap]
  congr 1
  funext table c
  simp only [compile]
  rcases b.request c with _ | _ | request <;> rfl

theorem pairwise_entry (requests : List MemoRequest) :
    (requests.map b.entry).Pairwise Memo.Agree ↔ requests.Pairwise b.BuildAlike :=
  List.pairwise_map

/-- The assertion loses nothing, since a builder makes what its caller asserts. -/
theorem assertType_eq_iff {source : Source} {answer : Except GoError (Built b.lib)} :
    b.assertType source.type answer = b.assertType source.type (source.build b.lib) ↔
      answer = source.build b.lib := by
  constructor
  · intro same
    cases own : source.build b.lib with
    | error err =>
      rw [own] at same
      cases answer with
      | error other =>
        cases same
        rfl
      | ok object =>
        simp only [assertType] at same
        split at same <;> cases same
    | ok object =>
      rw [own] at same
      simp only [assertType, Source.build_type own, if_true] at same
      split at same
      · cases same
      · split at same <;> cases same
        rfl
  · rintro rfl
    rfl

end Build

/-- In every sequence of compilations each gets what it would have built itself, exactly if
no two of them ask with one key for objects that differ. -/
theorem memoize_transparent_iff (b : Build) (cs : List Compilation) :
    (∀ before c after, cs = before ++ c :: after →
      (b.compile (b.process before) c).2 = b.compileDirectly c) ↔
    (b.requests cs).Pairwise b.BuildAlike := by
  induction cs using List.reverseRecOn with
  | nil => simp [Build.requests]
  | append_singleton cs c ih =>
    rw [forall_split_snoc, ih]
    have grown : b.requests (cs ++ [c]) =
        b.requests cs ++ (((b.request c).toOption).join).toList := by
      simp only [Build.requests, List.filterMap_append]
      cases asked : (b.request c).toOption.join <;> simp [asked]
    rw [grown]
    rcases asked : b.request c with err | _ | request
    · simp [Build.compile, Build.compileDirectly, asked, Except.toOption]
    · simp [Build.compile, Build.compileDirectly, asked, Except.toOption]
    · have last : ((b.compile (b.process cs) c).2 = b.compileDirectly c) ↔
          Memo.answer (Memo.attempts ((b.requests cs).map b.entry)) (b.entry request) =
            (b.entry request).2 := by
        simp only [Build.compile, Build.compileDirectly, asked, Build.process_eq]
        exact Build.assertType_eq_iff
      rw [last, ← Build.pairwise_entry, ← Build.pairwise_entry, ← Memo.pairwise_agree_snoc]
      simp [Except.toOption]

/-- Libraries whose objects are the texts they are built from. -/
def textLibraries : Libraries where
  Regexp := Bytes
  BinaryRegexp := Bytes
  Matcher := List Bytes
  Schema := Bytes
  compile := .ok
  compileBinary := .ok
  build := fun words _ => words
  compileSchema := .ok

def textBuild : Build where
  rt := Host.plain.toRuntime
  quote := Host.plain.quote
  noMultiline := false
  lib := textLibraries

def sameContent (content : String) : Operators.FileSystem := ⟨fun _ => .ok (str content)⟩

/-- `SecRule ARGS:/admin/ "@pm admin"` panics, and a second WAF gets the words of the first
one's file. -/
theorem memoize_shares :
    (textBuild.compile (textBuild.process [.selector (str "/admin/")]) (.pm (str "admin"))).2 =
        .panicked ∧
      textBuild.compileDirectly (.pm (str "admin")) = .object (.matcher [str "admin"]) ∧
      (textBuild.compile
        (textBuild.process [.pmFromFile [str "/etc"] (sameContent "alpha") (str "words.data")])
        (.pmFromFile [str "/etc"] (sameContent "beta") (str "words.data"))).2 =
          .object (.matcher [str "alpha"]) ∧
      textBuild.compileDirectly (.pmFromFile [str "/etc"] (sameContent "beta") (str "words.data")) =
        .object (.matcher [str "beta"]) :=
  ⟨rfl, rfl, rfl, rfl⟩

end Obsidian
