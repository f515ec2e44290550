import Fulgur.Library.Delimiters
import Fulgur.Tabs.Transfer

/-! # URLs of remote files

A remote file is given as a URL or in the style of `scp`. What was parsed is
written as a URL again, without its password, for the files opened recently.
Errors are given by their text: all are `SshError::ParseError`.
-/

namespace Fulgur

open Delimiters

def REMOTE_ROOT_PATH : String := "/"

/-! ## Hosts and ports -/

def withoutPlus : List Char → List Char
  | '+' :: digits => digits
  | digits => digits

def parseU16 (text : List Char) : Option UInt16 :=
  let digits := withoutPlus text
  let value := Nat.ofDigitChars 10 digits 0
  if digits ≠ [] ∧ digits.all Char.isDigit = true ∧ value < 65536 then some (UInt16.ofNat value)
  else none

def parsePort (text : List Char) : Except String UInt16 :=
  match parseU16 text with
  | some port => .ok port
  | none => .error ("Invalid port: " ++ String.ofList text)

/-- A host after its opening bracket, and what follows the closing one. -/
def parseBracketedHost (inner : List Char) : Except String (List Char × UInt16) :=
  match splitFirst ']' inner with
  | none => .error "Unclosed '[' in IPv6 address"
  | some (host, rest) =>
      if host = [] then .error "Host must not be empty"
      else match rest with
        | [] => .ok (host, 22)
        | ':' :: p =>
            if p = [] then .error "Port must not be empty"
            else (parsePort p).map fun port => (host, port)
        | _ => .error ("Invalid IPv6 host suffix: " ++ String.ofList rest)

/-- A host without brackets; what follows its last colon is the port. -/
def parsePlainHost (hostport : List Char) : Except String (List Char × UInt16) :=
  match splitLast ':' hostport with
  | none => .ok (hostport, 22)
  | some (host, portStr) =>
      if host = [] then .error "Host must not be empty"
      else (parsePort portStr).map fun port => (host, port)

/-- The host and the port, 22 when none is written. -/
def parseHostport : List Char → Except String (List Char × UInt16)
  | [] => .error "Host must not be empty"
  | '[' :: inner => parseBracketedHost inner
  | hostport => parsePlainHost hostport

/-! ## The two styles -/

/-- The path as it is used, `~` and what is below it without the slash in front. -/
def normalizeUrlStylePath : List Char → List Char
  | ['/', '~'] => ['~']
  | '/' :: '~' :: '/' :: relative => '~' :: '/' :: relative
  | path => path

/-- The authority of a URL and the path; the path starts at the first slash. -/
def urlAuthority (rest : List Char) : List Char × List Char :=
  match splitFirst '/' rest with
  | some (authority, relative) => (authority, normalizeUrlStylePath ('/' :: relative))
  | none => (rest, REMOTE_ROOT_PATH.toList)

def urlUserinfo (authority : List Char) : Option (List Char) × Option (List Char) × List Char :=
  match splitLast '@' authority with
  | none => (none, none, authority)
  | some (userinfo, hostport) =>
      match splitFirst ':' userinfo with
      | none => (some userinfo, none, hostport)
      | some (user, password) => (some user, some password, hostport)

def parseUrlStyle (rest : List Char) : Except String RemoteSpec :=
  let (authority, path) := urlAuthority rest
  if authority = [] then .error "Host must not be empty"
  else
    let (user, password, hostport) := urlUserinfo authority
    (parseHostport hostport).map fun (host, port) =>
      { host := String.ofList host, port, user := user.map String.ofList
        path := String.ofList path, passwordInUrl := password.map String.ofList }

/-- The loop of `find_scp_path_separator`: the first colon outside brackets. -/
def findScpPathSeparator : Bool → List Char → Option Nat
  | _, [] => none
  | inBrackets, ch :: rest =>
      if ch = '[' then (findScpPathSeparator true rest).map (· + 1)
      else if ch = ']' then (findScpPathSeparator false rest).map (· + 1)
      else if ch = ':' ∧ inBrackets = false then some 0
      else (findScpPathSeparator inBrackets rest).map (· + 1)

/-- The authority and the path of the `scp` style; a relative path is one below `~`. -/
def scpAuthority (input : List Char) : List Char × List Char :=
  match findScpPathSeparator false input with
  | none => (input, REMOTE_ROOT_PATH.toList)
  | some colonIdx =>
      match input.drop (colonIdx + 1) with
      | [] => (input.take colonIdx, REMOTE_ROOT_PATH.toList)
      | '/' :: path => (input.take colonIdx, '/' :: path)
      | rawPath => (input.take colonIdx, '~' :: '/' :: rawPath)

def scpUser (authority : List Char) : Option (List Char) × List Char :=
  match splitFirst '@' authority with
  | none => (none, authority)
  | some (user, host) => (some user, host)

def parseScpStyle (input : List Char) : Except String RemoteSpec :=
  let (authority, path) := scpAuthority input
  let (user, hostStr) := scpUser authority
  (parseHostport hostStr).map fun (host, port) =>
    { host := String.ofList host, port, user := user.map String.ofList
      path := String.ofList path, passwordInUrl := none }

/-- `str::strip_prefix`. -/
def stripPrefix (start text : List Char) : Option (List Char) :=
  if start <+: text then some (text.drop start.length) else none

def parseRemoteUrl (input : String) : Except String RemoteSpec :=
  let input := (trim input).toList
  if input = [] then .error "URL must not be empty"
  else
    let rest := (stripPrefix "ssh://".toList input).orElse fun _ =>
      stripPrefix "sftp://".toList input
    match rest with
    | some rest => parseUrlStyle rest
    | none => parseScpStyle input

/-! ## Writing a URL -/

def formatPathForUrl : List Char → List Char
  | '~' :: '/' :: relative => '/' :: '~' :: '/' :: relative
  | ['~'] => ['/', '~']
  | '/' :: path => '/' :: path
  | path => '/' :: path

/-- A host with a colon is put into brackets, unless one of them is there. -/
def formatHostForUrl (host : List Char) : List Char :=
  if ':' ∈ host ∧ host.head? ≠ some '[' ∧ host.getLast? ≠ some ']' then '[' :: host ++ [']']
  else host

def formatAuthority (spec : RemoteSpec) : List Char :=
  let hostport := formatHostForUrl spec.host.toList ++ ':' :: (toString spec.port.toNat).toList
  match spec.user with
  | some user => if user.isEmpty then hostport else user.toList ++ '@' :: hostport
  | none => hostport

def formatRemoteUrl (spec : RemoteSpec) : String :=
  String.ofList ("ssh://".toList ++ formatAuthority spec ++ formatPathForUrl spec.path.toList)

example : (parseRemoteUrl " ssh://al@[::1]:2222/~/notes.md").map formatRemoteUrl =
    .ok "ssh://al@[::1]:2222/~/notes.md" := by decide +kernel

end Fulgur
