import Obsidian.Data.Base64
import Obsidian.Data.Json

namespace Obsidian.App

open Obsidian.Data

/-! # Access tokens

The signing secret of the `auth` package, `GenerateJWT` and `VerifyJWT`.  The keyed hash of
`crypto/hmac` is a parameter, the clock and the environment are arguments.
-/

namespace Auth

def errTokenExpired : GoError := str "token has expired"
def errInvalidToken : GoError := str "invalid token"

/-! ## The signing secret -/

structure Package where
  cachedSecretKey : Bytes
  isDevelopmentMode : Bool
deriving DecidableEq

/-- With the value of `OBSIDIAN_JWT_SECRET`.  An error is a panic, which leaves the variables
as they are. -/
def getSecretKey (env : Bytes) (p : Package) : Except GoError (Bytes × Package) :=
  if p.cachedSecretKey ≠ [] then .ok (p.cachedSecretKey, p)
  else if env = [] ∧ p.isDevelopmentMode = false then
    .error (str "FATAL: OBSIDIAN_JWT_SECRET environment variable not set. This is required in production mode.")
  else
    let key := if env = [] then str "obsidian-development-secret-key-change-in-production" else env
    if key.length < 32 ∧ p.isDevelopmentMode = false then
      .error (str "FATAL: OBSIDIAN_JWT_SECRET must be at least 32 characters for production security")
    else .ok (key, { p with cachedSecretKey := key })

/-! ## Signing -/

def unix (nanos : Int) : Int := wrap64 (nanos / 1000000000)

structure Issue where
  now : Int
  userID : Int
  username : Bytes
  role : Bytes
  duration : Int
  userID_isInt64 : IsInt64 userID

namespace Issue

variable (issue : Issue)

def iat : Int := unix issue.now
def exp : Int := unix (issue.now + issue.duration)

def header : Bytes := str "\x7b\"alg\":\"HS256\",\"typ\":\"JWT\"\x7d"

def payload : Bytes :=
  str "\x7b\"user_id\":" ++ itoa issue.userID ++ str ",\"username\":\"" ++ issue.username ++
    str "\",\"role\":\"" ++ issue.role ++ str "\",\"iat\":" ++ itoa issue.iat ++
    str ",\"exp\":" ++ itoa issue.exp ++
    str ",\"iss\":\"obsidian-waf\",\"aud\":\"obsidian-ui\"\x7d"

def signingInput : Bytes :=
  Base64.encode header ++ byte '.' :: Base64.encode issue.payload

end Issue

section

variable (hmac : Bytes → Bytes → Bytes)

def signHS256 (data secret : Bytes) : Bytes := Base64.encode (hmac secret data)

def Issue.token (issue : Issue) (secret : Bytes) : Bytes :=
  issue.signingInput ++ byte '.' :: signHS256 hmac issue.signingInput secret

def generateJWT (env : Bytes) (issue : Issue) (p : Package) : Except GoError (Bytes × Package) :=
  (getSecretKey env p).map fun (secret, p) => (issue.token hmac secret, p)

end

/-! ## Claims -/

structure Claims where
  userID : Int := 0
  username : Bytes := []
  role : Bytes := []
  iat : Int := 0
  exp : Int := 0
  iss : Bytes := []
  aud : Bytes := []
deriving DecidableEq, Repr

/-- Names of members are compared up to the case of ASCII letters; two other characters fold
to one. -/
def foldName : Bytes → Bytes
  | [] => []
  | 0xC5 :: 0xBF :: rest => byte 'S' :: foldName rest
  | 0xE2 :: 0x84 :: 0xAA :: rest => byte 'K' :: foldName rest
  | b :: rest => upperByte b :: foldName rest

def stringField (set : Bytes → Claims) (claims : Claims) : Json → Option Claims
  | .null => some claims
  | .string text => some (set text)
  | _ => none

def intField (set : Int → Claims) (claims : Claims) : Json → Option Claims
  | .null => some claims
  | .raw text => (parseInt 64 text).map set
  | _ => none

/-- A member of the object goes to the field of its name; a value of another type is an
error. -/
def setMember (claims : Claims) (member : Bytes × Json) : Option Claims :=
  let (name, value) := member
  if foldName name = str "USER_ID" then intField ({ claims with userID := · }) claims value
  else if foldName name = str "USERNAME" then
    stringField ({ claims with username := · }) claims value
  else if foldName name = str "ROLE" then stringField ({ claims with role := · }) claims value
  else if foldName name = str "IAT" then intField ({ claims with iat := · }) claims value
  else if foldName name = str "EXP" then intField ({ claims with exp := · }) claims value
  else if foldName name = str "ISS" then stringField ({ claims with iss := · }) claims value
  else if foldName name = str "AUD" then stringField ({ claims with aud := · }) claims value
  else some claims

def decodeClaims : Json → Option Claims
  | .null => some {}
  | .object members => members.foldlM setMember {}
  | _ => none

def parseJSONClaims (data : Bytes) : Option Claims := (JsonText.parse data).bind decodeClaims

section

variable (hmac : Bytes → Bytes → Bytes)

def verifyToken (now : Int) (tokenString secret : Bytes) : Except GoError Claims :=
  match tokenString.splitOn (byte '.') with
  | [header, payload, signature] =>
    let signingInput := header ++ byte '.' :: payload
    if signature ≠ signHS256 hmac signingInput secret then .error errInvalidToken
    else
      match (Base64.decode payload).bind parseJSONClaims with
      | none => .error errInvalidToken
      | some claims => if claims.exp < unix now then .error errTokenExpired else .ok claims
  | _ => .error errInvalidToken

/-- The outer error is a panic of `getSecretKey`. -/
def verifyJWT (env : Bytes) (now : Int) (tokenString : Bytes) (p : Package) :
    Except GoError (Except GoError Claims × Package) :=
  (getSecretKey env p).map fun (secret, p) => (verifyToken hmac now tokenString secret, p)

end

end Auth

end Obsidian.App
