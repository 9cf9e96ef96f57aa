import Obsidian.Transformations.Cleaning

namespace Obsidian

open Obsidian.Data

/-! # The registered transformations -/

inductive Registered where
  | base64Decode | base64DecodeExt | base64Encode | cmdLine | compressWhitespace | cssDecode
  | escapeSeqDecode | hexDecode | hexEncode | htmlEntityDecode | jsDecode | length | lowercase
  | md5 | none | normalisePath | normalisePathWin | normalizePath | normalizePathWin
  | removeComments | removeCommentsChar | removeNulls | removeWhitespace | replaceComments
  | replaceNulls | sha1 | uppercase | urlDecode | urlDecodeUni | urlEncode | utf8toUnicode
  | trim | trimLeft | trimRight
deriving DecidableEq, Repr

namespace Registered

def all : List Registered := [
  .base64Decode, .base64DecodeExt, .base64Encode, .cmdLine, .compressWhitespace, .cssDecode,
  .escapeSeqDecode, .hexDecode, .hexEncode, .htmlEntityDecode, .jsDecode, .length, .lowercase,
  .md5, .none, .normalisePath, .normalisePathWin, .normalizePath, .normalizePathWin,
  .removeComments, .removeCommentsChar, .removeNulls, .removeWhitespace, .replaceComments,
  .replaceNulls, .sha1, .uppercase, .urlDecode, .urlDecodeUni, .urlEncode, .utf8toUnicode,
  .trim, .trimLeft, .trimRight]

def name : Registered → Bytes
  | .base64Decode => str "base64decode"
  | .base64DecodeExt => str "base64decodeext"
  | .base64Encode => str "base64encode"
  | .cmdLine => str "cmdline"
  | .compressWhitespace => str "compresswhitespace"
  | .cssDecode => str "cssdecode"
  | .escapeSeqDecode => str "escapeseqdecode"
  | .hexDecode => str "hexdecode"
  | .hexEncode => str "hexencode"
  | .htmlEntityDecode => str "htmlentitydecode"
  | .jsDecode => str "jsdecode"
  | .length => str "length"
  | .lowercase => str "lowercase"
  | .md5 => str "md5"
  | .none => str "none"
  | .normalisePath => str "normalisepath"
  | .normalisePathWin => str "normalisepathwin"
  | .normalizePath => str "normalizepath"
  | .normalizePathWin => str "normalizepathwin"
  | .removeComments => str "removecomments"
  | .removeCommentsChar => str "removecommentschar"
  | .removeNulls => str "removenulls"
  | .removeWhitespace => str "removewhitespace"
  | .replaceComments => str "replacecomments"
  | .replaceNulls => str "replacenulls"
  | .sha1 => str "sha1"
  | .uppercase => str "uppercase"
  | .urlDecode => str "urldecode"
  | .urlDecodeUni => str "urldecodeuni"
  | .urlEncode => str "urlencode"
  | .utf8toUnicode => str "utf8tounicode"
  | .trim => str "trim"
  | .trimLeft => str "trimleft"
  | .trimRight => str "trimright"

variable (rt : Runtime) (unescapeString : Bytes → Bytes)

def function : Registered → Transformation
  | .base64Decode => Transformations.base64decode
  | .base64DecodeExt => Transformations.base64decodeext
  | .base64Encode => Transformations.base64encode
  | .cmdLine => Transformations.cmdLine
  | .compressWhitespace => Transformations.compressWhitespace
  | .cssDecode => Transformations.cssDecode
  | .escapeSeqDecode => Transformations.escapeSeqDecode
  | .hexDecode => Transformations.hexDecode
  | .hexEncode => Transformations.hexEncode
  | .htmlEntityDecode => Transformations.htmlEntityDecode unescapeString
  | .jsDecode => Transformations.jsDecode
  | .length => Transformations.length
  | .lowercase => Transformations.lowerCase rt
  | .md5 => Transformations.md5T
  | .none => Transformations.none
  | .normalisePath => Transformations.normalisePath
  | .normalisePathWin => Transformations.normalisePathWin
  | .normalizePath => Transformations.normalisePath
  | .normalizePathWin => Transformations.normalisePathWin
  | .removeComments => Transformations.removeComments
  | .removeCommentsChar => Transformations.removeCommentsChar
  | .removeNulls => Transformations.removeNulls
  | .removeWhitespace => Transformations.removeWhitespace
  | .replaceComments => Transformations.replaceComments
  | .replaceNulls => Transformations.replaceNulls
  | .sha1 => Transformations.sha1T
  | .uppercase => Transformations.upperCase rt
  | .urlDecode => Transformations.urlDecode
  | .urlDecodeUni => Transformations.urlDecodeUni
  | .urlEncode => Transformations.urlEncode
  | .utf8toUnicode => Transformations.utf8ToUnicode
  | .trim => Transformations.trim
  | .trimLeft => Transformations.trimLeft
  | .trimRight => Transformations.trimRight

end Registered

def getTransformation (rt : Runtime) (unescapeString : Bytes → Bytes) (name : Bytes) :
    Option Transformation :=
  (Registered.all.find? (·.name = rt.toLower name)).map (·.function rt unescapeString)

end Obsidian
