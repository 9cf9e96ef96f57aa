import Obsidian.Collections

namespace Obsidian

open Obsidian.Data

/-! # Transaction variables

`TransactionVariables` holds a string for each `collections.Single` and a map
for each `collections.Map` or `NamedCollection`; the other collections are views
over these.
-/

inductive SingleField where
  | duration | filesCombinedSize | fullRequestLength | highestSeverity | inboundDataError
  | matchedVar | matchedVarName | multipartDataAfter | multipartStrictError | outboundDataError
  | queryString | remoteAddr | remoteHost | remotePort | reqbodyError | reqbodyErrorMsg
  | reqbodyProcessor | reqbodyProcessorError | reqbodyProcessorErrorMsg | requestBasename
  | requestBody | requestBodyLength | requestFilename | requestLine | requestMethod
  | requestProtocol | requestURI | requestURIRaw | responseBody | responseContentLength
  | responseContentType | responseProtocol | responseStatus | resBodyProcessor | serverAddr
  | serverName | serverPort | statusLine | uniqueID | urlencodedError | resBodyError
  | resBodyErrorMsg | resBodyProcessorError | resBodyProcessorErrorMsg | time | timeDay
  | timeEpoch | timeHour | timeMin | timeMon | timeSec | timeWday | timeYear
deriving DecidableEq, Repr

inductive MapField where
  | argsGet | argsPath | argsPost | env | files | filesNames | filesSizes | filesTmpContent
  | filesTmpNames | geo | matchedVars | multipartFilename | multipartName | multipartPartHeaders
  | requestCookies | requestHeaders | requestXML | responseHeaders | responseXML | responseArgs
  | rule | tx
deriving DecidableEq, Repr

def SingleField.var : SingleField → RuleVariable
  | .duration => .duration
  | .filesCombinedSize => .filesCombinedSize
  | .fullRequestLength => .fullRequestLength
  | .highestSeverity => .highestSeverity
  | .inboundDataError => .inboundDataError
  | .matchedVar => .matchedVar
  | .matchedVarName => .matchedVarName
  | .multipartDataAfter => .multipartDataAfter
  | .multipartStrictError => .multipartStrictError
  | .outboundDataError => .outboundDataError
  | .queryString => .queryString
  | .remoteAddr => .remoteAddr
  | .remoteHost => .remoteHost
  | .remotePort => .remotePort
  | .reqbodyError => .reqbodyError
  | .reqbodyErrorMsg => .reqbodyErrorMsg
  | .reqbodyProcessor => .reqbodyProcessor
  | .reqbodyProcessorError => .reqbodyProcessorError
  | .reqbodyProcessorErrorMsg => .reqbodyProcessorErrorMsg
  | .requestBasename => .requestBasename
  | .requestBody => .requestBody
  | .requestBodyLength => .requestBodyLength
  | .requestFilename => .requestFilename
  | .requestLine => .requestLine
  | .requestMethod => .requestMethod
  | .requestProtocol => .requestProtocol
  | .requestURI => .requestURI
  | .requestURIRaw => .requestURIRaw
  | .responseBody => .responseBody
  | .responseContentLength => .responseContentLength
  | .responseContentType => .responseContentType
  | .responseProtocol => .responseProtocol
  | .responseStatus => .responseStatus
  | .resBodyProcessor => .resBodyProcessor
  | .serverAddr => .serverAddr
  | .serverName => .serverName
  | .serverPort => .serverPort
  | .statusLine => .statusLine
  | .uniqueID => .uniqueID
  | .urlencodedError => .urlencodedError
  | .resBodyError => .resBodyError
  | .resBodyErrorMsg => .resBodyErrorMsg
  | .resBodyProcessorError => .resBodyProcessorError
  | .resBodyProcessorErrorMsg => .resBodyProcessorErrorMsg
  | .time => .time
  | .timeDay => .timeDay
  | .timeEpoch => .timeEpoch
  | .timeHour => .timeHour
  | .timeMin => .timeMin
  | .timeMon => .timeMon
  | .timeSec => .timeSec
  | .timeWday => .timeWday
  | .timeYear => .timeYear

def MapField.var : MapField → RuleVariable
  | .argsGet => .argsGet
  | .argsPath => .argsPath
  | .argsPost => .argsPost
  | .env => .env
  | .files => .files
  | .filesNames => .filesNames
  | .filesSizes => .filesSizes
  | .filesTmpContent => .filesTmpContent
  | .filesTmpNames => .filesTmpNames
  | .geo => .geo
  | .matchedVars => .matchedVars
  | .multipartFilename => .multipartFilename
  | .multipartName => .multipartName
  | .multipartPartHeaders => .multipartPartHeaders
  | .requestCookies => .requestCookies
  | .requestHeaders => .requestHeaders
  | .requestXML => .requestXML
  | .responseHeaders => .responseHeaders
  | .responseXML => .responseXML
  | .responseArgs => .responseArgs
  | .rule => .rule
  | .tx => .tx

structure TransactionVariables where
  single : SingleField → Bytes
  map : MapField → MapData

inductive Collection where
  | single (field : SingleField)
  | map (field : MapField)
  | names (field : MapField) (var : RuleVariable)
  | concat (var : RuleVariable) (fields : List MapField)
  | concatNames (var : RuleVariable) (fields : List MapField)
  | size (var : RuleVariable) (fields : List MapField)
  | absent
  | noop
deriving DecidableEq, Repr

def RuleVariable.collection : RuleVariable → Collection
  | .responseContentType => .single .responseContentType
  | .uniqueID => .single .uniqueID
  | .argsCombinedSize => .size .argsCombinedSize [.argsGet, .argsPost]
  | .filesCombinedSize => .single .filesCombinedSize
  | .fullRequestLength => .single .fullRequestLength
  | .inboundDataError => .single .inboundDataError
  | .matchedVar => .single .matchedVar
  | .matchedVarName => .single .matchedVarName
  | .multipartDataAfter => .single .multipartDataAfter
  | .outboundDataError => .single .outboundDataError
  | .queryString => .single .queryString
  | .remoteAddr => .single .remoteAddr
  | .remoteHost => .single .remoteHost
  | .remotePort => .single .remotePort
  | .reqbodyError => .single .reqbodyError
  | .reqbodyErrorMsg => .single .reqbodyErrorMsg
  | .reqbodyProcessorError => .single .reqbodyProcessorError
  | .reqbodyProcessorErrorMsg => .single .reqbodyProcessorErrorMsg
  | .reqbodyProcessor => .single .reqbodyProcessor
  | .requestBasename => .single .requestBasename
  | .requestBody => .single .requestBody
  | .requestBodyLength => .single .requestBodyLength
  | .requestFilename => .single .requestFilename
  | .requestLine => .single .requestLine
  | .requestMethod => .single .requestMethod
  | .requestProtocol => .single .requestProtocol
  | .requestURI => .single .requestURI
  | .requestURIRaw => .single .requestURIRaw
  | .responseBody => .single .responseBody
  | .responseContentLength => .single .responseContentLength
  | .responseProtocol => .single .responseProtocol
  | .responseStatus => .single .responseStatus
  | .serverAddr => .single .serverAddr
  | .serverName => .single .serverName
  | .serverPort => .single .serverPort
  | .highestSeverity => .single .highestSeverity
  | .statusLine => .single .statusLine
  | .duration => .single .duration
  | .responseHeadersNames => .names .responseHeaders .responseHeadersNames
  | .requestHeadersNames => .names .requestHeaders .requestHeadersNames
  | .args => .concat .args [.argsGet, .argsPost, .argsPath]
  | .argsGet => .map .argsGet
  | .argsPost => .map .argsPost
  | .argsPath => .map .argsPath
  | .filesSizes => .map .filesSizes
  | .filesNames => .map .filesNames
  | .filesTmpContent => .map .filesTmpContent
  | .multipartFilename => .map .multipartFilename
  | .multipartName => .map .multipartName
  | .matchedVarsNames => .names .matchedVars .matchedVarsNames
  | .matchedVars => .map .matchedVars
  | .files => .map .files
  | .requestCookies => .map .requestCookies
  | .requestHeaders => .map .requestHeaders
  | .responseHeaders => .map .responseHeaders
  | .geo => .map .geo
  | .requestCookiesNames => .names .requestCookies .requestCookiesNames
  | .filesTmpNames => .map .filesTmpNames
  | .argsNames => .concatNames .argsNames [.argsGet, .argsPost, .argsPath]
  | .argsGetNames => .names .argsGet .argsGetNames
  | .argsPostNames => .names .argsPost .argsPostNames
  | .resBodyProcessor => .single .resBodyProcessor
  | .tx => .map .tx
  | .rule => .map .rule
  | .json => .absent
  | .env => .map .env
  | .urlencodedError => .single .urlencodedError
  | .responseArgs => .map .responseArgs
  | .responseXML => .map .responseXML
  | .requestXML => .map .requestXML
  | .xml => .map .requestXML
  | .multipartPartHeaders => .map .multipartPartHeaders
  | .multipartStrictError => .single .multipartStrictError
  | .time => .single .time
  | .timeDay => .single .timeDay
  | .timeEpoch => .single .timeEpoch
  | .timeHour => .single .timeHour
  | .timeMin => .single .timeMin
  | .timeMon => .single .timeMon
  | .timeSec => .single .timeSec
  | .timeWday => .single .timeWday
  | .timeYear => .single .timeYear
  | _ => .noop

def Collection.keyed : Collection → Bool
  | .map _ | .names _ _ | .concat _ _ | .concatNames _ _ => true
  | _ => false

namespace TransactionVariables

def new : TransactionVariables where
  single := fun _ => []
  map := fun _ => ∅

def setSingle (v : TransactionVariables) (field : SingleField) (value : Bytes) :
    TransactionVariables :=
  { v with single := Function.update v.single field value }

def setMap (v : TransactionVariables) (field : MapField) (data : MapData) :
    TransactionVariables :=
  { v with map := Function.update v.map field data }

@[simp] theorem setSingle_map (v : TransactionVariables) (field : SingleField) (value : Bytes) :
    (v.setSingle field value).map = v.map := rfl

@[simp] theorem setMap_single (v : TransactionVariables) (field : MapField) (data : MapData) :
    (v.setMap field data).single = v.single := rfl

theorem setSingle_single (v : TransactionVariables) (field other : SingleField) (value : Bytes) :
    (v.setSingle field value).single other = if other = field then value else v.single other := by
  simp only [setSingle, Function.update_apply]

/-! ## Map operations -/

/-- Only the argument collections can be built with case sensitive keys. -/
def normalKey (rt : Runtime) (field : MapField) (key : Bytes) : Bytes :=
  if rt.shouldUseCaseSensitiveNamedCollection ∧
      (field = .argsGet ∨ field = .argsPost ∨ field = .argsPath) then key
  else rt.toLower key

def mapAdd (rt : Runtime) (v : TransactionVariables) (field : MapField) (key : GoString)
    (value : Bytes) : TransactionVariables :=
  v.setMap field ((v.map field).add (normalKey rt field key.text) key value)

def mapSet (rt : Runtime) (v : TransactionVariables) (field : MapField) (key : GoString)
    (values : List Bytes) : TransactionVariables :=
  v.setMap field ((v.map field).set (normalKey rt field key.text) key values)

def mapSetIndex (rt : Runtime) (v : TransactionVariables) (field : MapField) (key : GoString)
    (index : Nat) (value : Bytes) : TransactionVariables :=
  v.setMap field ((v.map field).setIndex (normalKey rt field key.text) key index value)

def mapRemove (rt : Runtime) (v : TransactionVariables) (field : MapField) (key : Bytes) :
    TransactionVariables :=
  v.setMap field ((v.map field).erase (normalKey rt field key))

def mapGet (rt : Runtime) (v : TransactionVariables) (field : MapField) (key : Bytes) :
    List Bytes :=
  (v.map field).get (normalKey rt field key)

/-! ## Lookups -/

def findSelected (rt : Runtime) (tick : Nat) (v : TransactionVariables)
    (select : Bytes → Bool) : Collection → List MatchData
  | .map field =>
    ((v.map field).enumerate (rt.mapOrder tick 0) select).map (·.toMatch field.var)
  | .names field var =>
    ((v.map field).enumerate (rt.mapOrder tick 0) select).map (·.toNameMatch var)
  | .concat var fields => fields.zipIdx.flatMap fun (field, part) =>
    ((v.map field).enumerate (rt.mapOrder tick part) select).map (·.toMatch var)
  | .concatNames var fields => fields.zipIdx.flatMap fun (field, part) =>
    ((v.map field).enumerate (rt.mapOrder tick part) select).map (·.toNameMatch var)
  | _ => []

def findAll (rt : Runtime) (tick : Nat) (v : TransactionVariables) (col : Collection) :
    List MatchData :=
  match col with
  | .single field => [{ var := field.var, value := v.single field }]
  | .size var fields =>
    [{ var, value := itoa ((fields.map fun field => (v.map field).size).sum : Nat) }]
  | col => v.findSelected rt tick (fun _ => true) col

def findRegex (rt : Runtime) (tick : Nat) (v : TransactionVariables) (rx : Regexp)
    (col : Collection) : List MatchData :=
  v.findSelected rt tick rx.matchString col

/-- `FindString` of a keyed collection for a non-empty key.  A `Map` folds the
key's case first, a names view compares it as it is. -/
def findString (rt : Runtime) (v : TransactionVariables) (key : Bytes) :
    Collection → List MatchData
  | .map field =>
    ((v.map field).values (normalKey rt field key)).map (·.toMatch field.var)
  | .names field var => ((v.map field).values key).map (·.toNameMatch var)
  | .concat var fields => fields.flatMap fun field =>
    ((v.map field).values (normalKey rt field key)).map (·.toMatch var)
  | .concatNames var fields => fields.flatMap fun field =>
    ((v.map field).values key).map (·.toNameMatch var)
  | _ => []

/-! ## Reset -/

def all : List (RuleVariable × Collection) := [
  (.args, .concat .args [.argsGet, .argsPost, .argsPath]),
  (.argsCombinedSize, .size .argsCombinedSize [.argsGet, .argsPost]),
  (.argsGet, .map .argsGet),
  (.argsGetNames, .names .argsGet .argsGetNames),
  (.argsNames, .concatNames .argsNames [.argsGet, .argsPost, .argsPath]),
  (.argsPath, .map .argsPath),
  (.argsPost, .map .argsPost),
  (.argsPostNames, .names .argsPost .argsPostNames),
  (.duration, .single .duration),
  (.env, .map .env),
  (.files, .map .files),
  (.filesCombinedSize, .single .filesCombinedSize),
  (.filesNames, .map .filesNames),
  (.filesSizes, .map .filesSizes),
  (.filesTmpContent, .map .filesTmpContent),
  (.filesTmpNames, .map .filesTmpNames),
  (.fullRequestLength, .single .fullRequestLength),
  (.geo, .map .geo),
  (.highestSeverity, .single .highestSeverity),
  (.inboundDataError, .single .inboundDataError),
  (.matchedVar, .single .matchedVar),
  (.matchedVarName, .single .matchedVarName),
  (.matchedVars, .map .matchedVars),
  (.matchedVarsNames, .names .matchedVars .matchedVarsNames),
  (.multipartDataAfter, .single .multipartDataAfter),
  (.multipartFilename, .map .multipartFilename),
  (.multipartName, .map .multipartName),
  (.multipartPartHeaders, .map .multipartPartHeaders),
  (.multipartStrictError, .single .multipartStrictError),
  (.outboundDataError, .single .outboundDataError),
  (.queryString, .single .queryString),
  (.remoteAddr, .single .remoteAddr),
  (.remoteHost, .single .remoteHost),
  (.remotePort, .single .remotePort),
  (.reqbodyError, .single .reqbodyError),
  (.reqbodyErrorMsg, .single .reqbodyErrorMsg),
  (.reqbodyProcessor, .single .reqbodyProcessor),
  (.reqbodyProcessorError, .single .reqbodyProcessorError),
  (.reqbodyProcessorErrorMsg, .single .reqbodyProcessorErrorMsg),
  (.requestBasename, .single .requestBasename),
  (.requestBody, .single .requestBody),
  (.requestBodyLength, .single .requestBodyLength),
  (.requestCookies, .map .requestCookies),
  (.requestCookiesNames, .names .requestCookies .requestCookiesNames),
  (.requestFilename, .single .requestFilename),
  (.requestHeaders, .map .requestHeaders),
  (.requestHeadersNames, .names .requestHeaders .requestHeadersNames),
  (.requestLine, .single .requestLine),
  (.requestMethod, .single .requestMethod),
  (.requestProtocol, .single .requestProtocol),
  (.requestURI, .single .requestURI),
  (.requestURIRaw, .single .requestURIRaw),
  (.requestXML, .map .requestXML),
  (.responseBody, .single .responseBody),
  (.responseContentLength, .single .responseContentLength),
  (.responseContentType, .single .responseContentType),
  (.responseHeaders, .map .responseHeaders),
  (.responseHeadersNames, .names .responseHeaders .responseHeadersNames),
  (.responseProtocol, .single .responseProtocol),
  (.responseStatus, .single .responseStatus),
  (.responseXML, .map .responseXML),
  (.responseArgs, .map .responseArgs),
  (.resBodyProcessor, .single .resBodyProcessor),
  (.rule, .map .rule),
  (.serverAddr, .single .serverAddr),
  (.serverName, .single .serverName),
  (.serverPort, .single .serverPort),
  (.statusLine, .single .statusLine),
  (.tx, .map .tx),
  (.uniqueID, .single .uniqueID),
  (.urlencodedError, .single .urlencodedError),
  (.xml, .map .requestXML),
  (.time, .single .time),
  (.timeDay, .single .timeDay),
  (.timeEpoch, .single .timeEpoch),
  (.timeHour, .single .timeHour),
  (.timeMin, .single .timeMin),
  (.timeMon, .single .timeMon),
  (.timeSec, .single .timeSec),
  (.timeWday, .single .timeWday),
  (.timeYear, .single .timeYear)]

/-- `Reset` of the collections that are `resettable`; the views are not. -/
def resetCollection (v : TransactionVariables) : Collection → TransactionVariables
  | .single field => v.setSingle field []
  | .map field => v.setMap field ∅
  | _ => v

def reset (v : TransactionVariables) : TransactionVariables :=
  all.foldl (fun v entry => v.resetCollection entry.2) v

end TransactionVariables

end Obsidian
