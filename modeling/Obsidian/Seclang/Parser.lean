import Obsidian.Data.Text

namespace Obsidian

open Obsidian.Data

/-! # The configuration parser

`parser.go` from the text of a configuration down to the calls of the directives.
What a directive does to the options `σ` is left to the map of directives.
-/

/-- A directive returns an error or panics. -/
inductive DirectiveFailure where
  | error (err : GoError)
  | panic
deriving DecidableEq, Repr

inductive Failure where
  | error (err : GoError)
  | panic
  | invalidLine
deriving DecidableEq, Repr

/-- What a directive is called with: the fields of `DirectiveOptions` that
`evaluateLine` sets. -/
structure DirectiveCall where
  raw : Bytes
  opts : Bytes
  lastLine : Nat
  configFile : Bytes
  configDir : Bytes
  workingDir : Bytes
deriving DecidableEq, Repr

abbrev Directive (σ : Type) := DirectiveCall → σ → σ × Option DirectiveFailure

/-- The parser's surroundings: the directives, the file system under `root` and
what `strings.ToLower`, `%q` and `os.Getwd` answer. -/
structure ParserHost (σ : Type) where
  directivesMap : Bytes → Option (Directive σ)
  glob : Bytes → Except GoError (List Bytes)
  readFile : Bytes → Except GoError Bytes
  unicodeLower : Bytes → Bytes
  quote : Bytes → Bytes
  hasAccessToFS : Bool
  getwd : Except GoError Bytes

structure Parser (σ : Type) where
  options : σ
  workingDir : Bytes := []
  currentLine : Nat := 0
  currentFile : Bytes := []
  currentDir : Bytes := []
  includeCount : Nat := 0

def maxIncludeRecursion : Nat := 100

def backtick : UInt8 := 96

def errBackticksLeftOpen : GoError := str "backticks left open"

def errIncludeLimit : GoError := str "cannot include more than 100 files"

section

variable {σ : Type}

/-! ## Lines -/

/-- The variables of `parseString`.  `passed` is a record of the calls of
`evaluateLine`, which the source does not keep. -/
structure ParseState (σ : Type) where
  parser : Parser σ
  linebuffer : Bytes := []
  inBackticks : Bool := false
  passed : List Bytes := []

abbrev LineEvaluator (σ : Type) := Parser σ → Bytes → Parser σ × Option Failure

/-- The body of the loop of `parseString`. -/
def parseLine (evaluateLine : LineEvaluator σ) (token : Bytes) (st : ParseState σ) :
    ParseState σ × Option Failure :=
  let st := { st with parser := { st.parser with currentLine := st.parser.currentLine + 1 } }
  let line := trimSpace token
  if line = [] then (st, none)
  else if line.head? = some (byte '#') then (st, none)
  else
    let inBackticks :=
      if ¬st.inBackticks ∧ line.getLast? = some backtick then true
      else if st.inBackticks ∧ line.head? = some backtick then false
      else st.inBackticks
    let st := { st with inBackticks := inBackticks }
    if inBackticks then ({ st with linebuffer := st.linebuffer ++ line ++ [byte '\n'] }, none)
    else if line.getLast? = some (byte '\\') then
      ({ st with linebuffer := st.linebuffer ++ line.dropLast }, none)
    else
      let linebuffer := st.linebuffer ++ line
      let (parser, failure) := evaluateLine st.parser linebuffer
      let st := { st with parser := parser, passed := st.passed ++ [linebuffer] }
      match failure with
      | some failure => ({ st with linebuffer := linebuffer }, some failure)
      | none => ({ st with linebuffer := [] }, none)

def parseLines (evaluateLine : LineEvaluator σ) :
    List Bytes → ParseState σ → ParseState σ × Option Failure
  | [], st => (st, if st.inBackticks then some (.error errBackticksLeftOpen) else none)
  | token :: rest, st =>
    match parseLine evaluateLine token st with
    | (st, some failure) => (st, some failure)
    | (st, none) => parseLines evaluateLine rest st

def parseWith (evaluateLine : LineEvaluator σ) (p : Parser σ) (data : Bytes) :
    ParseState σ × Option Failure :=
  parseLines evaluateLine ((scanned data).map dropCR) { parser := p }

/-! ## Files -/

def wrapFailure (message : Bytes) : Failure → Failure
  | .error err => .error (message ++ err)
  | failure => failure

def directiveFailure (message : Bytes) : DirectiveFailure → Failure
  | .error err => .error (message ++ err)
  | .panic => .panic

/-- The loop of `FromFile`, over the files a pattern stands for. -/
def fromFiles (host : ParserHost σ) (evaluateLine : LineEvaluator σ) (originalDir : Bytes) :
    List Bytes → Parser σ → Parser σ × Option Failure
  | [], p => ({ p with currentDir := originalDir, currentFile := [] }, none)
  | profilePath :: rest, p =>
    let profilePath := trimSpace profilePath
    let profilePath :=
      if profilePath.head? = some (byte '/') then profilePath
      else joinPath p.currentDir profilePath
    let lastDir := p.currentDir
    let p := { p with currentFile := profilePath, currentDir := dirPath profilePath }
    match host.readFile profilePath with
    | .error err =>
      ({ p with currentDir := originalDir, currentFile := [] },
        some (.error (str "failed to readfile: " ++ err)))
    | .ok file =>
      match parseWith evaluateLine p file with
      | (st, some failure) =>
        ({ st.parser with currentDir := originalDir, currentFile := [] },
          some (wrapFailure (str "failed to parse string: ") failure))
      | (st, none) =>
        fromFiles host evaluateLine originalDir rest { st.parser with currentDir := lastDir }

def fromFileWith (host : ParserHost σ) (evaluateLine : LineEvaluator σ) (p : Parser σ)
    (profilePath : Bytes) : Parser σ × Option Failure :=
  if profilePath.contains (byte '*') then
    match host.glob profilePath with
    | .error err => (p, some (.error (str "failed to glob: " ++ err)))
    | .ok files => fromFiles host evaluateLine p.currentDir files p
  else fromFiles host evaluateLine p.currentDir [profilePath] p

/-! ## Directives -/

/-- `evaluateLine` once the file of an `include` can be parsed. -/
def evaluateWith (host : ParserHost σ) (fromFile : Parser σ → Bytes → Parser σ × Option Failure)
    (p : Parser σ) (l : Bytes) : Parser σ × Option Failure :=
  if l = [] ∨ l.head? = some (byte '#') then (p, some .invalidLine)
  else
    let (dir, opts) := (cut (byte ' ') l).getD (l, [])
    let directive := toLower host.unicodeLower dir
    let opts :=
      if 3 ≤ opts.length ∧ opts.head? = some 34 ∧ opts.getLast? = some 34 then trim [34] opts
      else opts
    if directive = str "include" then
      if maxIncludeRecursion ≤ p.includeCount then (p, some (.error errIncludeLimit))
      else fromFile { p with includeCount := p.includeCount + 1 } opts
    else
      match host.directivesMap directive with
      | none => (p, some (.error (str "unknown directive " ++ host.quote directive)))
      | some d =>
        match if host.hasAccessToFS then host.getwd else .ok p.workingDir with
        | .error err => (p, some (.error err))
        | .ok workingDir =>
          let (options, failure) := d
            { raw := l, opts := opts, lastLine := p.currentLine, configFile := p.currentFile,
              configDir := p.currentDir, workingDir := workingDir } p.options
          let p := { p with options := options, workingDir := workingDir }
          (p, failure.map (directiveFailure
            (str "failed to compile the directive " ++ host.quote directive ++ str ": ")))

/-- `evaluateLine` with room for so many includes within each other. -/
def evaluateNested (host : ParserHost σ) : Nat → LineEvaluator σ
  | 0 => evaluateWith host fun p _ => (p, some (.error errIncludeLimit))
  | depth + 1 => evaluateWith host (fromFileWith host (evaluateNested host depth))

/-- An include raises `includeCount`, so no more than these can be nested. -/
def includesLeft (p : Parser σ) : Nat := maxIncludeRecursion - p.includeCount

def Parser.evaluateLine (host : ParserHost σ) (p : Parser σ) (l : Bytes) :
    Parser σ × Option Failure :=
  evaluateNested host (includesLeft p) p l

def Parser.parseString (host : ParserHost σ) (p : Parser σ) (data : Bytes) :
    ParseState σ × Option Failure :=
  parseWith (Parser.evaluateLine host) p data

def Parser.fromString (host : ParserHost σ) (p : Parser σ) (data : Bytes) :
    Parser σ × Option Failure :=
  let oldCurrentFile := p.currentFile
  let (st, failure) := Parser.parseString host { p with currentFile := str "_inline_" } data
  ({ st.parser with currentFile := oldCurrentFile }, failure)

end

end Obsidian
