import Hal0.Core.Transition
import Hal0.Slots.ConfigDoc
import Mathlib.Data.List.Basic

/-!
# Resumable downloads

`_download_one` streams one file to a staging `.part` and installs it by a
rename.  An attempt which is interrupted keeps the `.part` and writes a
sidecar with the url, the etag and the number of bytes; the next attempt asks
for the tail only, with `If-Range` when the sidecar has an etag.

The attempts on one staging file follow each other.  The server honours
`Range` and `If-Range`; what it serves at a url may change at any time, and
each version has an etag of its own.  The body of an answer is the one of the
version which was served when the headers came; a stream which ends early
raises.

`installs` is not in the source: it records what was installed.  A download
returns when it installs.
-/

namespace Hal0.Registry.Download

open Hal0.Transition

abbrev Bytes := List UInt8

abbrev Url := String

/-! ## Headers -/

/-- `_SHA256_HEX_RE.match`; `$` also matches before a final newline. -/
def isSha256Hex (chars : List Char) : Bool :=
  let digits := if chars.getLast? = some '\n' then chars.dropLast else chars
  digits.length = 64 && digits.all fun char =>
    ('0' ≤ char && char ≤ '9') || ('a' ≤ char && char ≤ 'f')

/-- `text.strip('"')` -/
def stripQuotes (chars : List Char) : List Char :=
  ((chars.dropWhile (· = '"')).reverse.dropWhile (· = '"')).reverse

/-- The cleaned value of one `X-Linked-ETag` header. -/
def cleanLinkedEtag (header : String) : List Char :=
  let raw := Slots.ConfigFiles.stripped header
  let strong :=
    if raw.take 2 = ['W', '/'] ∨ raw.take 2 = ['w', '/'] then raw.drop 2
    else raw
  (stripQuotes (Slots.ConfigFiles.stripped (String.ofList strong))).map
    Char.toLower

/-- `_expected_sha256_from_response`, on the headers of the redirect chain. -/
def expectedSha256FromResponse (linkedEtags : List String) : Option String :=
  ((linkedEtags.map cleanLinkedEtag).find? isSha256Hex).map String.ofList

/-- `_parse_content_range_total`, on the numbers the pattern reads. -/
def parseContentRangeTotal (range : Option (Nat × Nat × Nat))
    (resumeFrom : Nat) : Option Nat :=
  match range with
  | none => none
  | some (first, _, total) => if first = resumeFrom then some total else none

/-- The object behind a URL. -/
structure Version where
  etag : String
  bytes : Bytes
  linkedEtags : List String
deriving DecidableEq

/-- The digest that the response names. -/
def Version.advertised (version : Version) : Option String :=
  expectedSha256FromResponse version.linkedEtags

/-- The status of an answer, and the `Content-Range` of a partial one. -/
inductive Response where
  | full
  | partialContent (range : Option (Nat × Nat × Nat))
  | rangeNotSatisfiable
  | refused
deriving DecidableEq

/-! ## Staging -/

/-- The sidecar of a partial download. -/
structure Meta where
  url : Url
  etag : Option String
  bytes : Nat
deriving DecidableEq

/-- The staged bytes and their sidecar. -/
structure Staging where
  part : Option Bytes
  sidecar : Option Meta

namespace Staging

/-- `_read_resume_sidecar` -/
def readResumeSidecar (staging : Staging) (url : Url) : Option Meta :=
  match staging.part, staging.sidecar with
  | some part, some noted =>
    if 0 < noted.bytes ∧ noted.url = url ∧ part.length = noted.bytes then
      some noted
    else none
  | _, _ => none

/-- `_discard_partial` -/
def discardPartial : Staging := ⟨none, none⟩

/-- `_write_resume_sidecar` -/
def writeResumeSidecar (staging : Staging) (url : Url)
    (etag : Option String) : Staging :=
  match staging.part with
  | none => discardPartial
  | some part =>
    if part.length = 0 then discardPartial
    else ⟨some part, some ⟨url, etag, part.length⟩⟩

end Staging

/-! ## Attempts -/

/-- The locals of an attempt; `preset` is the `expected_sha256` it is given. -/
structure Attempt where
  url : Url
  preset : Option String
  resumeFrom : Nat
  ifRange : Option String
deriving DecidableEq

/-- `rec.expected_sha256` once the headers of `version` are there. -/
def Attempt.expected (attempt : Attempt) (version : Version) :
    Option String :=
  match attempt.preset with
  | some given => some given
  | none => version.advertised

/-- `rec.expected_sha256 and digest != rec.expected_sha256` -/
def Attempt.mismatches (attempt : Attempt) (version : Version)
    (digest : String) : Bool :=
  match attempt.expected version with
  | none => false
  | some hash => hash ≠ "" && digest ≠ hash

/-- Where the attempt is suspended. -/
inductive Pc where
  /-- The request is sent. -/
  | requesting (attempt : Attempt)
  /-- A thread hashes the part on disk. -/
  | rehashing (attempt : Attempt) (version : Version)
  /-- The body comes in chunks; `hashed` is what the hasher has seen. -/
  | streaming (attempt : Attempt) (version : Version) (hashed rest : Bytes)

/-- A finished download. -/
structure Install where
  url : Url
  preset : Option String
  bytes : Bytes
  digest : String
deriving DecidableEq

/-- `served` is all that the server ever had, the newest first. -/
structure State where
  served : List (Url × Version)
  staging : Staging
  attempt : Option Pc
  installs : List Install

/-- How a download ends early. -/
inductive Interruption where
  /-- An `httpx.HTTPError`. -/
  | transport
  /-- The task is cancelled. -/
  | taskCancelled
  /-- The user has asked for a stop, and a chunk comes. -/
  | userCancelled
  /-- A permanent failure, or an unexpected one. -/
  | failed
deriving DecidableEq

/-- A step of the server, or of the download. -/
inductive Action where
  | publish (url : Url) (version : Version)
  | start (url : Url) (preset : Option String)
  | respond (response : Response)
  | rehashed
  | chunk (length : Nat)
  | finish
  | interrupt (interruption : Interruption)

/-- What the server has at `url` now. -/
def current (served : List (Url × Version)) (url : Url) : Option Version :=
  (served.find? (·.1 = url)).map Prod.snd

/-- The attempt ends, and leaves `staging` behind. -/
def State.ends (state : State) (staging : Staging) : State :=
  { state with staging := staging, attempt := none }

def State.at (state : State) (staging : Staging) (pc : Pc) : State :=
  { state with staging := staging, attempt := some pc }

/-- The probe of the sidecar, up to the first request. -/
def begin (state : State) (url : Url) (preset : Option String) : State :=
  match state.staging.readResumeSidecar url with
  | some noted =>
    state.at state.staging
      (.requesting ⟨url, preset, noted.bytes, noted.etag.filter (· ≠ "")⟩)
  | none => state.at .discardPartial (.requesting ⟨url, preset, 0, none⟩)

/-- The headers are there.  A 206 is the tail from the first byte it names. -/
def respond (state : State) (attempt : Attempt) (version : Version) :
    Response → Option State
  | .rangeNotSatisfiable =>
    if 0 < attempt.resumeFrom then
      some (state.at .discardPartial
        (.requesting { attempt with resumeFrom := 0, ifRange := none }))
    else some (state.ends .discardPartial)
  | .refused => some (state.ends .discardPartial)
  | .full =>
    some (state.at { state.staging with part := some [] }
      (.streaming attempt version [] version.bytes))
  | .partialContent range =>
    if 0 < attempt.resumeFrom ∧ (attempt.ifRange = none ∨
        attempt.ifRange = some version.etag) then
      match parseContentRangeTotal range attempt.resumeFrom with
      | none => some (state.ends .discardPartial)
      | some _ => some (state.at state.staging (.rehashing attempt version))
    else none

/-- The stream is complete: verify, and install by a rename. -/
def install (sha256 : Bytes → String) (state : State) (attempt : Attempt)
    (version : Version) (hashed part : Bytes) : State :=
  let digest := sha256 hashed
  if attempt.mismatches version digest then
    state.ends { state.staging with sidecar := none }
  else
    { state.ends .discardPartial with
      installs := state.installs ++
        [⟨attempt.url, attempt.preset, part, digest⟩] }

/-- The etag which the attempt has captured. -/
def Pc.capturedEtag : Pc → Option String
  | .requesting _ => none
  | .rehashing _ version | .streaming _ version _ _ => some version.etag

/-- The URL that is downloaded. -/
def Pc.url : Pc → Url
  | .requesting attempt | .rehashing attempt _
  | .streaming attempt _ _ _ => attempt.url

/-- The `except` clauses. -/
def interrupt (state : State) (pc : Pc) : Interruption → Option State
  | .transport | .taskCancelled =>
    some (state.ends (state.staging.writeResumeSidecar pc.url
      pc.capturedEtag))
  | .userCancelled =>
    match pc with
    | .streaming _ _ _ (_ :: _) => some (state.ends .discardPartial)
    | _ => none
  | .failed => some (state.ends .discardPartial)

/-- One step of the download. -/
def step (sha256 : Bytes → String) : StepFunction State Action
  | state, .publish url version =>
    if version.etag ≠ "" ∧ ∀ old ∈ state.served, old.1 = url →
        old.2.etag = version.etag → old.2 = version then
      some { state with served := (url, version) :: state.served }
    else none
  | state, .start url preset =>
    if state.attempt.isNone then some (begin state url preset) else none
  | state, .respond response =>
    match state.attempt with
    | some (.requesting attempt) =>
      match current state.served attempt.url with
      | some version => respond state attempt version response
      | none => some (state.ends .discardPartial)
    | _ => none
  | state, .rehashed =>
    match state.attempt, state.staging.part with
    | some (.rehashing attempt version), some part =>
      if part.length = attempt.resumeFrom then
        some (state.at state.staging (.streaming attempt version part
          (version.bytes.drop attempt.resumeFrom)))
      else some (state.ends .discardPartial)
    | _, _ => none
  | state, .chunk length =>
    match state.attempt, state.staging.part with
    | some (.streaming attempt version hashed rest), some part =>
      some (state.at
        { state.staging with part := some (part ++ rest.take length) }
        (.streaming attempt version (hashed ++ rest.take length)
          (rest.drop length)))
    | _, _ => none
  | state, .finish =>
    match state.attempt, state.staging.part with
    | some (.streaming attempt version hashed []), some part =>
      some (install sha256 state attempt version hashed part)
    | _, _ => none
  | state, .interrupt interruption =>
    match state.attempt with
    | some pc => interrupt state pc interruption
    | none => none

/-- Nothing is served and nothing staged. -/
def empty : State := ⟨[], ⟨none, none⟩, none, []⟩

end Hal0.Registry.Download
