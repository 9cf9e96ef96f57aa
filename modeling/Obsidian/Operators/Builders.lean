import Obsidian.Data.Digest
import Obsidian.Seclang.RuleParser
import Obsidian.Transformations.Decoding

namespace Obsidian

open Obsidian.Data

/-! # What operators are built from

Compiling a rule, a selector or a directive asks `memoize.Do` for an object.  Each place
that does so is translated up to that call: the key it asks with, and what its builder is
given.
-/

inductive Source where
  | regexp (expr : Bytes)
  | binaryRegexp (expr : Bytes)
  | dictionary (words : List Bytes) (dfa : Bool)
  | schema (data : Bytes)
deriving DecidableEq, Repr

structure MemoRequest where
  key : Bytes
  source : Source
deriving DecidableEq, Repr

/-! ## Regular expressions -/

namespace Operators

def decodeEscapes : Bytes → Bytes
  | [] => []
  | 92 :: 120 :: high :: low :: rest =>
    if validHex high ∧ validHex low then x2c high low :: decodeEscapes rest
    else 92 :: decodeEscapes (120 :: high :: low :: rest)
  | c :: rest => c :: decodeEscapes rest

def matchesArbitraryBytes (expr : Bytes) : Bool := !validString (decodeEscapes expr)

example : matchesArbitraryBytes (str "a\\xc3\\xa9\\x") = false := by decide
example : matchesArbitraryBytes (str "\\xff") = true := by decide

def newBinaryRX (arguments : Bytes) : MemoRequest := ⟨arguments, .binaryRegexp arguments⟩

/-- `noMultiline` is the build's `shouldNotUseMultilineRegexesOperatorByDefault`. -/
def newRX (noMultiline : Bool) (arguments : Bytes) : MemoRequest :=
  let data := str (if noMultiline then "(?s)" else "(?sm)") ++ arguments
  if matchesArbitraryBytes data then newBinaryRX arguments else ⟨data, .regexp data⟩

/-- The tokens of `rePathTokenRe`: what stands between a brace and the next closing one. -/
def pathTokensFrom : Nat → Bytes → List Bytes
  | _, [] | 0, _ => []
  | fuel + 1, c :: rest =>
    if c = 123 then
      match cut 125 rest with
      | some (token, after) =>
        if token ≠ [] then token :: pathTokensFrom fuel after else pathTokensFrom fuel rest
      | none => pathTokensFrom fuel rest
    else pathTokensFrom fuel rest

def pathTokens (data : Bytes) : List Bytes := pathTokensFrom data.length data

def replaceFirst (old new : Bytes) : Bytes → Bytes
  | [] => []
  | c :: rest =>
    if old.isPrefixOf (c :: rest) then new ++ (c :: rest).drop old.length
    else c :: replaceFirst old new rest

def newRESTPath (arguments : Bytes) : MemoRequest :=
  let data := arguments.flatMap fun c => if c = byte '/' then str "\\/" else [c]
  let data := (pathTokens data).foldl (fun data token =>
    replaceFirst (123 :: token ++ [125]) (str "(?P<" ++ token ++ str ">[^?/]+)") data) data
  ⟨data, .regexp data⟩

example : (newRESTPath (str "/u/\x7bid\x7d")).key = str "\\/u\\/(?P<id>[^?/]+)" := by decide

inductive NidType where
  | cl | us
deriving DecidableEq, Repr

def invalidNidArgument : GoError := str "invalid @validateNid argument"

def newValidateNID (arguments : Bytes) : Except GoError (NidType × MemoRequest) :=
  match cut (byte ' ') arguments with
  | none => .error invalidNidArgument
  | some (type, expr) =>
    if type = str "cl" then .ok (.cl, ⟨expr, .regexp expr⟩)
    else if type = str "us" then .ok (.us, ⟨expr, .regexp expr⟩)
    else .error invalidNidArgument

/-- The expression between the slashes of a selector; any other selector is a text. -/
def selector (key : Bytes) : Option MemoRequest :=
  (hasRegex key).map fun rx => ⟨rx, .regexp rx⟩

def auditLogRelevantStatus (opts : Bytes) : Except GoError MemoRequest :=
  if opts = [] then .error (str "expected options") else .ok ⟨opts, .regexp opts⟩

/-! ## Files -/

inductive FileError where
  | notExist (message : GoError)
  | other (message : GoError)
deriving DecidableEq, Repr

def FileError.message : FileError → GoError
  | .notExist message | .other message => message

/-- The root file system of a WAF at the time of a compilation. -/
structure FileSystem where
  readFile : Bytes → Except FileError Bytes

def loadFromDirs (root : FileSystem) (fname : Bytes) :
    (dirs : List Bytes) → (err : GoError) → Except GoError Bytes
  | [], err => .error err
  | dir :: rest, _ =>
    match root.readFile (joinPath dir fname) with
    | .ok content => .ok content
    | .error (.notExist message) => loadFromDirs root fname rest message
    | .error (.other message) => .error message

def errEmptyDirs : GoError := str "empty dirs"

def loadFromFile (fname : Bytes) (dirs : List Bytes) (root : FileSystem) : Except GoError Bytes :=
  if fname.head? = some (byte '/') then (root.readFile fname).mapError FileError.message
  else if dirs = [] then .error errEmptyDirs
  else loadFromDirs root fname dirs []

section

variable (rt : Runtime)

def newPM (arguments : Bytes) : MemoRequest :=
  let data := rt.toLower arguments
  ⟨data, .dictionary (data.splitOn (byte ' ')) true⟩

def fileWords (data : Bytes) : List Bytes :=
  ((scanned data).map fun line => trimSpace (dropCR line)).filterMap fun line =>
    if line = [] ∨ line.head? = some (byte '#') then none else some (rt.toLower line)

def newPMFromFile (path : List Bytes) (root : FileSystem) (filepath : Bytes) :
    Except GoError MemoRequest :=
  (loadFromFile filepath path root).map fun data =>
    ⟨List.intercalate (str ",") path ++ filepath, .dictionary (fileWords rt data) false⟩

def newPMFromDataset (quote : Bytes → Bytes) (datasets : AList fun _ : Bytes => List Bytes)
    (data : Bytes) : Except GoError MemoRequest :=
  match datasets.lookup data with
  | none => .error (str "dataset " ++ quote data ++ str " not found")
  | some dataset => .ok ⟨data, .dictionary dataset true⟩

def extension (path : Bytes) : Bytes :=
  let tail := path.reverse.takeWhile fun b => b ≠ byte '.' ∧ b ≠ byte '/'
  match path.reverse.drop tail.length with
  | b :: _ => if b = byte '.' then byte '.' :: tail.reverse else []
  | [] => []

def md5Hash (data : Bytes) : Bytes := (Transformations.hexEncode (md5Sum data)).1

def newValidateSchema (root : FileSystem) (schemaPath : Bytes) : Except GoError MemoRequest :=
  let ext := rt.toLower (extension schemaPath)
  if schemaPath = [] then .error (str "missing schema file path")
  else if ext ≠ str ".json" then
    .error (str "unsupported schema type: " ++ ext ++ str ", only JSON is supported")
  else
    match root.readFile schemaPath with
    | .error err => .error (str "reading schema from root FS: " ++ err.message)
    | .ok schemaData => .ok ⟨md5Hash schemaData, .schema schemaData⟩

end

end Operators

end Obsidian
