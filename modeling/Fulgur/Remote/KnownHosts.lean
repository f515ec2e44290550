import Fulgur.Files.Encoding
import Fulgur.Library.Base64
import Fulgur.Library.Wildcard

/-! # Known hosts

The key of a server is looked up in the file of known hosts, first by the SSH
library and then in the entries that a parser of its own reads from the file. A
host that the user trusts gets a line at the end of the file.
-/

namespace Fulgur

/-- What the file of known hosts says of a key. -/
inductive CheckResult where
  | matched
  | mismatch
  | notFound
  | failure
deriving DecidableEq

inductive SshError where
  | connectionFailed (message : String)
  | hostKeyMismatch (host : String) (port : UInt16)
deriving DecidableEq

/-- The marker in front of an entry. -/
inductive Marker where
  | certAuthority
  | revoked
deriving DecidableEq

inductive HostPatterns where
  | patterns (patterns : List String)
  | hashedName (salt hash : List UInt8)
deriving DecidableEq

structure KnownHostEntry (KeyData : Type) where
  marker : Option Marker
  hostPatterns : HostPatterns
  keyData : KeyData
deriving DecidableEq

namespace KnownHosts

def bracketed (host : String) (port : UInt16) : String :=
  "[" ++ host ++ "]:" ++ toString port.toNat

/-! ## Host patterns -/

def hostMatchCandidates (host : String) (port : UInt16) : List String :=
  if port = 22 then [host, bracketed host 22] else [bracketed host port]

/-- Whether a pattern is negated, and the pattern without its sign. -/
def splitNegation (pattern : String) : Bool × List Char :=
  match pattern.toList with
  | '!' :: token => (true, token)
  | token => (false, token)

def isStar (a : Char) : Bool := a = '*'

/-- The first test of the loop, before it looks for a star. -/
def acceptsChar (a c : Char) : Bool := a = '?' || a = c

def wildcardPatternMatches (pattern target : List Char) : Bool :=
  Wildcard.scan isStar acceptsChar pattern target none

/-- The loop over the patterns of an entry. -/
def matchPatternsFrom (candidates : List String) : List String → Bool → Bool
  | [], matched => matched
  | pattern :: patterns, matched =>
      let (negated, token) := splitNegation pattern
      if candidates.any fun candidate => wildcardPatternMatches token candidate.toList then
        if negated then false else matchPatternsFrom candidates patterns true
      else matchPatternsFrom candidates patterns matched

def matchKnownHostPatterns (patterns candidates : List String) : Bool :=
  matchPatternsFrom candidates patterns false

section Hashed

-- the keyed hash of a name; `none` when the salt cannot be its key
variable (hmacSha1 : List UInt8 → List UInt8 → Option (List UInt8))

def hashedHostMatches (salt expectedHash : List UInt8) (candidate : String) : Bool :=
  hmacSha1 salt (asBytes candidate) = some expectedHash

def knownHostPatternsMatch (patterns : HostPatterns) (host : String) (port : UInt16) : Bool :=
  match patterns with
  | .patterns patterns => matchKnownHostPatterns patterns (hostMatchCandidates host port)
  | .hashedName salt hash =>
      (hostMatchCandidates host port).any (hashedHostMatches hmacSha1 salt hash)

/-! ## The decision -/

variable {KeyData : Type} [DecidableEq KeyData]

def knownHostEntryMatchesTarget (entry : KnownHostEntry KeyData) (host : String) (port : UInt16) :
    Bool :=
  knownHostPatternsMatch hmacSha1 entry.hostPatterns host port

/-- The loop over the entries. -/
def resolveFrom (host : String) (port : UInt16) (serverKey : KeyData) :
    List (KnownHostEntry KeyData) → Bool → CheckResult
  | [], sawHostEntry => if sawHostEntry then .mismatch else .notFound
  | entry :: entries, sawHostEntry =>
      if !knownHostEntryMatchesTarget hmacSha1 entry host port then
        resolveFrom host port serverKey entries sawHostEntry
      else if entry.keyData = serverKey then .matched
      else resolveFrom host port serverKey entries true

def resolveKnownHostCheckResultFromEntries (entries : List (KnownHostEntry KeyData))
    (host : String) (port : UInt16) (serverKey : KeyData) : CheckResult :=
  resolveFrom hmacSha1 host port serverKey entries false

end Hashed

/-- The loop over the results of several representations of a host. -/
def aggregateFrom : List CheckResult → Bool → Bool → CheckResult
  | [], sawMismatch, sawNotFound =>
      if sawMismatch then .mismatch else if sawNotFound then .notFound else .failure
  | .matched :: _, _, _ => .matched
  | .mismatch :: results, _, sawNotFound => aggregateFrom results true sawNotFound
  | .notFound :: results, sawMismatch, _ => aggregateFrom results sawMismatch true
  | .failure :: results, sawMismatch, sawNotFound => aggregateFrom results sawMismatch sawNotFound

def aggregateCheckResults (results : List CheckResult) : CheckResult :=
  aggregateFrom results false false

/-- What the SSH library answers; `checkPort` and `check` are its two lookups. -/
def resolveKnownHostCheckResult (checkPort : String → UInt16 → CheckResult)
    (check : String → CheckResult) (host : String) (port : UInt16) : CheckResult :=
  if port = 22 then
    aggregateCheckResults [checkPort host port, check host, check (bracketed host port)]
  else aggregateCheckResults [checkPort host port, check (bracketed host port)]

/-- The answer of the library, refined by that of the parser. -/
def resolveWithKnownHostsFallback (primary : CheckResult) (fallback : Option CheckResult) :
    CheckResult :=
  if primary = .matched then primary
  else match fallback with
    | some .matched => .matched
    | some .mismatch => .mismatch
    | some .notFound => if primary = .failure then .notFound else primary
    | some .failure => primary
    | none => primary

/-! ## Trusting a host -/

def knownHostsEntryHost (host : String) (port : UInt16) : String :=
  if port = 22 then host else bracketed host port

def isAsciiGraphic (c : Char) : Bool := '!' ≤ c ∧ c ≤ '~'

def hostKeyAlgorithmName (key : List UInt8) : Option String :=
  match key with
  | a :: b :: c :: d :: rest =>
      let nameLength := ((a.toNat * 256 + b.toNat) * 256 + c.toNat) * 256 + d.toNat
      if rest.length < nameLength then none
      else match fromUtf8 (rest.take nameLength) with
        | none => none
        | some name =>
            if !name.isEmpty && name.toList.all isAsciiGraphic then some name else none
  | _ => none

def knownHostsEntryLine (knownHost : String) (key : List UInt8) : Except SshError String :=
  match hostKeyAlgorithmName key with
  | none => .error (.connectionFailed "Server host key is not in a recognizable SSH wire format")
  | some algorithm =>
      .ok (knownHost ++ " " ++ algorithm ++ " " ++ String.ofList (Base64.encode key))

/-- A missing file reads as an empty one. -/
def knownHostsEndsMidLine (text : String) : Bool :=
  match text.toList.getLast? with
  | none => false
  | some last => last ≠ '\n'

def appendKnownHostsEntry (text knownHost : String) (key : List UInt8) : Except SshError String :=
  match knownHostsEntryLine knownHost key with
  | .error error => .error error
  | .ok entry =>
      let separator := if knownHostsEndsMidLine text then "\n" else ""
      .ok (text ++ (separator ++ entry ++ "\n"))

inductive HostKeyDecision where
  | accept
  | reject
deriving DecidableEq

/-- Check a key; the file changes when the user trusts an unknown one. -/
def checkHostKey (checked : CheckResult) (decision : HostKeyDecision) (text host : String)
    (port : UInt16) (key : List UInt8) : Except SshError String :=
  match checked with
  | .matched => .ok text
  | .mismatch => .error (.hostKeyMismatch host port)
  | .notFound | .failure =>
      match decision with
      | .reject =>
          .error (.connectionFailed
            ("Host key rejected for " ++ host ++ ":" ++ toString port.toNat))
      | .accept => appendKnownHostsEntry text (knownHostsEntryHost host port) key

end KnownHosts

end Fulgur
