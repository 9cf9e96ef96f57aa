import Obsidian.BodyProcessors.Json
import Obsidian.BodyProcessors.Multipart

namespace Obsidian

open Obsidian.Data

/-! # The registered body processors -/

def rawBodyProcessor : BodyProcessor where
  processRequest := fun body _ _ v =>
    match body with
    | .error err => (v, some err)
    | .ok b =>
      ((v.setSingle .requestBody b).setSingle .requestBodyLength (itoa b.length), none)
  processResponse := fun _ v => (v, none)

inductive XmlToken where
  | startElement (attrs : List Bytes)
  | charData (text : Bytes)
  | other
deriving DecidableEq, Repr

def xmlAttributes (tokens : List XmlToken) : List Bytes :=
  tokens.flatMap fun
    | .startElement attrs => attrs
    | _ => []

def xmlContents (tokens : List XmlToken) : List Bytes :=
  tokens.filterMap fun
    | .charData text => if trimSpace text ≠ [] then some (trimSpace text) else none
    | _ => none

/-- `decode` gives the tokens of the decoder until it has none left, or its error if that is
neither the end of the input nor an unexpected one. -/
def xmlBodyProcessor (rt : Runtime) (decode : Except GoError Bytes → Except GoError (List XmlToken)) :
    BodyProcessor where
  processRequest := fun body _ _ v =>
    match decode body with
    | .error err => (v, some err)
    | .ok tokens =>
      let v := v.mapSet rt .requestXML (.lit "//@*") (xmlAttributes tokens)
      (v.mapSet rt .requestXML (.lit "/*") (xmlContents tokens), none)
  processResponse := fun _ v => (v, none)

/-- What the body processors use of the libraries, and of the runtime while they run. -/
structure BodyLibraries where
  tick : Nat
  address : Bytes → Addr
  parseJSON : Bytes → Json
  decodeXML : Except GoError Bytes → Except GoError (List XmlToken)
  multipart : Multipart.Library
  uploads : Multipart.UploadDir

namespace BodyLibraries

def multipartSetup (libraries : BodyLibraries) (host : Host) : Multipart.Setup where
  rt := host.toRuntime
  tick := libraries.tick
  address := libraries.address
  hasAccessToFS := host.disk.hasAccessToFS
  library := libraries.multipart
  dir := libraries.uploads

def processors (libraries : BodyLibraries) (host : Host) : List (Bytes × BodyProcessor) :=
  let rt := host.toRuntime
  [(str "json", jsonBodyProcessor rt libraries.tick libraries.address libraries.parseJSON),
    (str "multipart", multipartBodyProcessor (libraries.multipartSetup host)),
    (str "raw", rawBodyProcessor),
    (str "urlencoded", urlencodedBodyProcessor rt libraries.tick libraries.address),
    (str "xml", xmlBodyProcessor rt libraries.decodeXML)]

end BodyLibraries

def Host.withBodyProcessors (host : Host) (libraries : BodyLibraries) : Host :=
  { host with bodyProcessors := fun name => (libraries.processors host).lookup name }

section

variable {host : Host} {libraries : BodyLibraries}

theorem getBodyProcessor_multipart {name : Bytes} (named : host.toLower name = str "multipart") :
    (host.withBodyProcessors libraries).getBodyProcessor name =
      .ok (multipartBodyProcessor (libraries.multipartSetup host)) := by
  have found : (libraries.processors host).lookup (host.toLower name) =
      some (multipartBodyProcessor (libraries.multipartSetup host)) := by
    rw [named]
    rfl
  simp only [Host.getBodyProcessor]
  rw [show (host.withBodyProcessors libraries).bodyProcessors
    ((host.withBodyProcessors libraries).toLower name) = _ from found]

theorem getBodyProcessor_mem {name : Bytes} {processor : BodyProcessor}
    (found : (host.withBodyProcessors libraries).getBodyProcessor name = .ok processor) :
    ∃ registered, (registered, processor) ∈ libraries.processors host := by
  simp only [Host.getBodyProcessor] at found
  split at found
  · next known =>
      cases found
      obtain ⟨before, after, whole, _⟩ := List.lookup_eq_some_iff.mp known
      exact ⟨_, whole ▸ List.mem_append_right before List.mem_cons_self⟩
  · cases found

end

end Obsidian
