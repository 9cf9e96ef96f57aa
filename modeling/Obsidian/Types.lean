import Obsidian.Data.Bytes

namespace Obsidian

open Obsidian.Data

/-! # Shared types

The enumerations of `types`, `corazatypes`, `plugintypes` and `variables`, and
the interruption a transaction reports.
-/

inductive RulePhase where
  | unknown | requestHeaders | requestBody | responseHeaders | responseBody | logging
deriving DecidableEq, Repr

def RulePhase.number : RulePhase → Nat
  | .unknown => 0
  | .requestHeaders => 1
  | .requestBody => 2
  | .responseHeaders => 3
  | .responseBody => 4
  | .logging => 5

instance : LE RulePhase := ⟨fun left right => left.number ≤ right.number⟩

instance (left right : RulePhase) : Decidable (left ≤ right) :=
  inferInstanceAs (Decidable (left.number ≤ right.number))

theorem RulePhase.le_def {left right : RulePhase} :
    left ≤ right ↔ left.number ≤ right.number := Iff.rfl

theorem RulePhase.le_rfl {phase : RulePhase} : phase ≤ phase := Nat.le_refl _

theorem RulePhase.le_trans {first second third : RulePhase}
    (left : first ≤ second) (right : second ≤ third) : first ≤ third :=
  Nat.le_trans left right

inductive RuleEngineStatus where
  | on | detectionOnly | off
deriving DecidableEq, Repr

inductive AuditEngineStatus where
  | on | off | relevantOnly
deriving DecidableEq, Repr

inductive BodyLimitAction where
  | processPartial | reject
deriving DecidableEq, Repr

inductive AllowType where
  | unset | all | phase | request
deriving DecidableEq, Repr

inductive ActionType where
  | metadata | disruptive | data | nondisruptive | flow
deriving DecidableEq, Repr

structure Interruption where
  ruleID : Int := 0
  action : Bytes
  status : Int
  data : Bytes := []
deriving DecidableEq, Repr

def parseRuleEngineStatus (unicode : Bytes → Bytes) (text : Bytes) : Option RuleEngineStatus :=
  let text := toLower unicode text
  if text = str "on" then some .on
  else if text = str "detectiononly" then some .detectionOnly
  else if text = str "off" then some .off
  else none

def parseAuditEngineStatus (unicode : Bytes → Bytes) (text : Bytes) : Option AuditEngineStatus :=
  let text := toLower unicode text
  if text = str "on" then some .on
  else if text = str "off" then some .off
  else if text = str "relevantonly" then some .relevantOnly
  else none

/-- `types.ParseAuditLogParts`: the parts between the leading `A` and the
trailing `Z`, each one of `B` to `K`. -/
def parseAuditLogParts (text : Bytes) : Option Bytes :=
  if text.head? ≠ some 65 then none
  else if text.getLast? ≠ some 90 then none
  else
    let parts := text.tail.dropLast
    if parts.all fun part => 66 ≤ part ∧ part ≤ 75 then some parts else none

/-! ## Severities -/

def severityName (severity : Int) : Bytes :=
  if severity = 0 then str "emergency"
  else if severity = 1 then str "alert"
  else if severity = 2 then str "critical"
  else if severity = 3 then str "error"
  else if severity = 4 then str "warning"
  else if severity = 5 then str "notice"
  else if severity = 6 then str "info"
  else if severity = 7 then str "debug"
  else str "unknown"

/-- `types.ParseRuleSeverity` with its error dropped, as `MatchRule` uses it. -/
def parseRuleSeverity (unicode : Bytes → Bytes) (text : Bytes) : Int :=
  if text.length = 1 then
    match atoi text with
    | some n => if n < 0 ∨ 7 < n then 0 else n
    | none => 0
  else
    let text := toLower unicode text
    ((List.range 8).find? fun n => severityName (Int.ofNat n) = text).elim 0 Int.ofNat

/-! ## Rule variables -/

inductive RuleVariable where
  | unknown | responseContentType | uniqueID | argsCombinedSize | filesCombinedSize
  | fullRequestLength | inboundDataError | matchedVar | matchedVarName | multipartDataAfter
  | outboundDataError | queryString | remoteAddr | remoteHost | remotePort | reqbodyError
  | reqbodyErrorMsg | reqbodyProcessorError | reqbodyProcessorErrorMsg | reqbodyProcessor
  | requestBasename | requestBody | requestBodyLength | requestFilename | requestLine
  | requestMethod | requestProtocol | requestURI | requestURIRaw | responseBody
  | responseContentLength | responseProtocol | responseStatus | serverAddr | serverName
  | serverPort | highestSeverity | statusLine | duration | responseHeadersNames
  | requestHeadersNames | args | argsGet | argsPost | argsPath | filesSizes | filesNames
  | filesTmpContent | multipartFilename | multipartName | matchedVarsNames | matchedVars | files
  | requestCookies | requestHeaders | responseHeaders | resBodyProcessor | geo
  | requestCookiesNames | filesTmpNames | argsNames | argsGetNames | argsPostNames | tx | rule
  | json | env | urlencodedError | responseArgs | responseXML | requestXML | xml
  | multipartPartHeaders | authType | fullRequest | multipartBoundaryQuoted
  | multipartBoundaryWhitespace | multipartCrlfLfLines | multipartDataBefore
  | multipartFileLimitExceeded | multipartHeaderFolding | multipartInvalidHeaderFolding
  | multipartInvalidPart | multipartInvalidQuoting | multipartLfLine | multipartMissingSemicolon
  | multipartStrictError | multipartUnmatchedBoundary | pathInfo | sessionid | userid | ip
  | resBodyError | resBodyErrorMsg | resBodyProcessorError | resBodyProcessorErrorMsg | time
  | timeDay | timeEpoch | timeHour | timeMin | timeMon | timeSec | timeWday | timeYear
deriving DecidableEq, Repr

def RuleVariable.name : RuleVariable → Bytes
  | .unknown => str "UNKNOWN"
  | .responseContentType => str "RESPONSE_CONTENT_TYPE"
  | .uniqueID => str "UNIQUE_ID"
  | .argsCombinedSize => str "ARGS_COMBINED_SIZE"
  | .filesCombinedSize => str "FILES_COMBINED_SIZE"
  | .fullRequestLength => str "FULL_REQUEST_LENGTH"
  | .inboundDataError => str "INBOUND_DATA_ERROR"
  | .matchedVar => str "MATCHED_VAR"
  | .matchedVarName => str "MATCHED_VAR_NAME"
  | .multipartDataAfter => str "MULTIPART_DATA_AFTER"
  | .outboundDataError => str "OUTBOUND_DATA_ERROR"
  | .queryString => str "QUERY_STRING"
  | .remoteAddr => str "REMOTE_ADDR"
  | .remoteHost => str "REMOTE_HOST"
  | .remotePort => str "REMOTE_PORT"
  | .reqbodyError => str "REQBODY_ERROR"
  | .reqbodyErrorMsg => str "REQBODY_ERROR_MSG"
  | .reqbodyProcessorError => str "REQBODY_PROCESSOR_ERROR"
  | .reqbodyProcessorErrorMsg => str "REQBODY_PROCESSOR_ERROR_MSG"
  | .reqbodyProcessor => str "REQBODY_PROCESSOR"
  | .requestBasename => str "REQUEST_BASENAME"
  | .requestBody => str "REQUEST_BODY"
  | .requestBodyLength => str "REQUEST_BODY_LENGTH"
  | .requestFilename => str "REQUEST_FILENAME"
  | .requestLine => str "REQUEST_LINE"
  | .requestMethod => str "REQUEST_METHOD"
  | .requestProtocol => str "REQUEST_PROTOCOL"
  | .requestURI => str "REQUEST_URI"
  | .requestURIRaw => str "REQUEST_URI_RAW"
  | .responseBody => str "RESPONSE_BODY"
  | .responseContentLength => str "RESPONSE_CONTENT_LENGTH"
  | .responseProtocol => str "RESPONSE_PROTOCOL"
  | .responseStatus => str "RESPONSE_STATUS"
  | .serverAddr => str "SERVER_ADDR"
  | .serverName => str "SERVER_NAME"
  | .serverPort => str "SERVER_PORT"
  | .highestSeverity => str "HIGHEST_SEVERITY"
  | .statusLine => str "STATUS_LINE"
  | .duration => str "DURATION"
  | .responseHeadersNames => str "RESPONSE_HEADERS_NAMES"
  | .requestHeadersNames => str "REQUEST_HEADERS_NAMES"
  | .args => str "ARGS"
  | .argsGet => str "ARGS_GET"
  | .argsPost => str "ARGS_POST"
  | .argsPath => str "ARGS_PATH"
  | .filesSizes => str "FILES_SIZES"
  | .filesNames => str "FILES_NAMES"
  | .filesTmpContent => str "FILES_TMP_CONTENT"
  | .multipartFilename => str "MULTIPART_FILENAME"
  | .multipartName => str "MULTIPART_NAME"
  | .matchedVarsNames => str "MATCHED_VARS_NAMES"
  | .matchedVars => str "MATCHED_VARS"
  | .files => str "FILES"
  | .requestCookies => str "REQUEST_COOKIES"
  | .requestHeaders => str "REQUEST_HEADERS"
  | .responseHeaders => str "RESPONSE_HEADERS"
  | .resBodyProcessor => str "RES_BODY_PROCESSOR"
  | .geo => str "GEO"
  | .requestCookiesNames => str "REQUEST_COOKIES_NAMES"
  | .filesTmpNames => str "FILES_TMPNAMES"
  | .argsNames => str "ARGS_NAMES"
  | .argsGetNames => str "ARGS_GET_NAMES"
  | .argsPostNames => str "ARGS_POST_NAMES"
  | .tx => str "TX"
  | .rule => str "RULE"
  | .json => str "JSON"
  | .env => str "ENV"
  | .urlencodedError => str "URLENCODED_ERROR"
  | .responseArgs => str "RESPONSE_ARGS"
  | .responseXML => str "RESPONSE_XML"
  | .requestXML => str "REQUEST_XML"
  | .xml => str "XML"
  | .multipartPartHeaders => str "MULTIPART_PART_HEADERS"
  | .authType => str "AUTH_TYPE"
  | .fullRequest => str "FULL_REQUEST"
  | .multipartBoundaryQuoted => str "MULTIPART_BOUNDARY_QUOTED"
  | .multipartBoundaryWhitespace => str "MULTIPART_BOUNDARY_WHITESPACE"
  | .multipartCrlfLfLines => str "MULTIPART_CRLF_LF_LINES"
  | .multipartDataBefore => str "MULTIPART_DATA_BEFORE"
  | .multipartFileLimitExceeded => str "MULTIPART_FILE_LIMIT_EXCEEDED"
  | .multipartHeaderFolding => str "MULTIPART_HEADER_FOLDING"
  | .multipartInvalidHeaderFolding => str "MULTIPART_INVALID_HEADER_FOLDING"
  | .multipartInvalidPart => str "MULTIPART_INVALID_PART"
  | .multipartInvalidQuoting => str "MULTIPART_INVALID_QUOTING"
  | .multipartLfLine => str "MULTIPART_LF_LINE"
  | .multipartMissingSemicolon => str "MULTIPART_MISSING_SEMICOLON"
  | .multipartStrictError => str "MULTIPART_STRICT_ERROR"
  | .multipartUnmatchedBoundary => str "MULTIPART_UNMATCHED_BOUNDARY"
  | .pathInfo => str "PATH_INFO"
  | .sessionid => str "SESSIONID"
  | .userid => str "USERID"
  | .ip => str "IP"
  | .resBodyError => str "RES_BODY_ERROR"
  | .resBodyErrorMsg => str "RES_BODY_ERROR_MSG"
  | .resBodyProcessorError => str "RES_BODY_PROCESSOR_ERROR"
  | .resBodyProcessorErrorMsg => str "RES_BODY_PROCESSOR_ERROR_MSG"
  | .time => str "TIME"
  | .timeDay => str "TIME_DAY"
  | .timeEpoch => str "TIME_EPOCH"
  | .timeHour => str "TIME_HOUR"
  | .timeMin => str "TIME_MIN"
  | .timeMon => str "TIME_MON"
  | .timeSec => str "TIME_SEC"
  | .timeWday => str "TIME_WDAY"
  | .timeYear => str "TIME_YEAR"

end Obsidian
