import StackMachine.Text.Decimal
import StackMachine.Text.Fields
import StackMachine.Text.Quoted

/-! Addresses of services: a scheme, a host and a path. -/
namespace StackMachine.Shell

/-- Where a request is sent. -/
structure Address where
  host : Bytes := []
  path : Bytes := []
deriving DecidableEq

namespace Address

/-- Why a text is no address. -/
inductive Problem where
  | controlCharacter
  | noScheme
  | relative
  | badEscape (escape : Bytes)
  | badPort (port : Bytes)
  | badHost (character : UInt8)
  | unclosedHost
  | badUser
deriving DecidableEq

/-- The wording of a problem. -/
def Problem.message : Problem → Bytes
  | .controlCharacter => utf8 "net/url: invalid control character in URL"
  | .noScheme => utf8 "missing protocol scheme"
  | .relative => utf8 "invalid URI for request"
  | .badEscape escape => utf8 "invalid URL escape " ++ Text.Quoted.quote escape
  | .badPort port => utf8 "invalid port " ++ Text.Quoted.quote port ++ utf8 " after host"
  | .badHost character =>
    utf8 "invalid character " ++ Text.Quoted.quote [character] ++ utf8 " in host name"
  | .unclosedHost => utf8 "missing ']' in host"
  | .badUser => utf8 "net/url: invalid userinfo"

/-- The byte is an ASCII letter. -/
def isLetter (b : UInt8) : Bool :=
  (97 ≤ b && b ≤ 122) || (65 ≤ b && b ≤ 90)

/-- The byte may stand in a scheme after its first letter. -/
def isSchemeByte (b : UInt8) : Bool :=
  isLetter b || Text.Decimal.isDigit b || b == 43 || b == 45 || b == 46

/-- The scheme, empty if there is none, and what follows its colon. -/
def splitScheme (text : Bytes) : Except Problem (Bytes × Bytes) :=
  match text.span isSchemeByte with
  | ([], 58 :: _) => .error .noScheme
  | (scheme, 58 :: rest) =>
    if (scheme.head?.map isLetter).getD false then .ok (scheme, rest) else .ok ([], text)
  | _ => .ok ([], text)

/-- The value of a hexadecimal digit. -/
def hexValue? (b : UInt8) : Option Nat :=
  match Text.Decimal.digitValue? b with
  | some d => if d < 16 then some d else none
  | none => none

/-- The text with its percent escapes decoded. `isAllowed` tells which of the other bytes may
stand in it, and `isEscapable` which bytes may be written as an escape. The first `skip` bytes
have been read as part of an escape. -/
def decode (isAllowed isEscapable : UInt8 → Bool) : Nat → Bytes → Except Problem Bytes
  | _, [] => .ok []
  | skip + 1, _ :: rest => decode isAllowed isEscapable skip rest
  | 0, b :: rest =>
    if b = 37 then
      match rest with
      | high :: low :: _ =>
        match hexValue? high, hexValue? low with
        | some h, some l =>
          let byte := UInt8.ofNat (h * 16 + l)
          if isEscapable byte then
            (decode isAllowed isEscapable 2 rest).map fun text => byte :: text
          else .error (.badEscape [37, high, low])
        | _, _ => .error (.badEscape [37, high, low])
      | _ => .error (.badEscape (37 :: rest))
    else if isAllowed b then (decode isAllowed isEscapable 0 rest).map fun text => b :: text
    else .error (.badHost b)

/-- The byte may stand in a host as it is. -/
def isHostByte (b : UInt8) : Bool :=
  128 ≤ b || isLetter b || Text.Decimal.isDigit b ||
    (utf8 "-_.~!$&'()*+,;=:[]<>\"").contains b

/-- The byte may stand in the user part of an authority. -/
def isUserByte (b : UInt8) : Bool :=
  isLetter b || Text.Decimal.isDigit b || (utf8 "-._:~!$&'()*+,;=%@").contains b

/-- The text is empty, or a colon and digits. -/
def isPort : Bytes → Bool
  | [] => true
  | b :: digits => b == 58 && digits.all Text.Decimal.isDigit

/-- The last colon of the text and what follows it; empty if there is none. -/
def portOf (text : Bytes) : Bytes :=
  if text.contains 58 then 58 :: (text.reverse.takeWhile (· != 58)).reverse else []

/-- Checks the port of a host. -/
def checkPort (host : Bytes) : Except Problem Unit :=
  if host.head? = some 91 then
    if host.contains 93 then
      let port := (host.reverse.takeWhile (· != 93)).reverse
      if isPort port then .ok () else .error (.badPort port)
    else .error .unclosedHost
  else if isPort (portOf host) then .ok ()
  else .error (.badPort (portOf host))

/-- The host of an authority. -/
def hostOf (authority : Bytes) : Except Problem Bytes :=
  let host := (authority.reverse.takeWhile (· != 64)).reverse
  let user := authority.take (authority.length - host.length)
  match checkPort host with
  | .error problem => .error problem
  | .ok () =>
    match decode isHostByte (fun b => 128 ≤ b || b == 37) 0 host with
    | .error problem => .error problem
    | .ok decoded => if user.all isUserByte then .ok decoded else .error .badUser

/-- The path without the query that follows it. -/
def pathOf (text : Bytes) : Except Problem Bytes :=
  decode (fun _ => true) (fun _ => true) 0 text

/-- Reads an address. Without slashes after the scheme there is no host. -/
def parse (text : Bytes) : Except Problem Address :=
  if text.any fun b => b < 32 || b == 127 then .error .controlCharacter
  else
    match splitScheme text with
    | .error problem => .error problem
    | .ok (scheme, rest) =>
      match scheme, rest.takeWhile (· != 63) with
      | _ :: _, 47 :: 47 :: located =>
        match hostOf (located.takeWhile (· != 47)), pathOf (located.dropWhile (· != 47)) with
        | .error problem, _ => .error problem
        | _, .error problem => .error problem
        | .ok host, .ok path => .ok { host, path }
      | _, 47 :: path => (pathOf (47 :: path)).map fun path => { path }
      | _ :: _, _ => .ok {}
      | [], _ => .error .relative

/-- Text that separates a scheme from a host. -/
def separator : Bytes := utf8 "://"

/-- What is told about a text that is no address. -/
def complaint (text : Bytes) (problem : Problem) : Bytes :=
  if Bytes.occurs separator text then
    utf8 "parse " ++ Text.Quoted.quote text ++ utf8 ": " ++ problem.message
  else
    utf8 "URL " ++ Text.Quoted.quote text ++
      utf8 " missing scheme: use http:// or https:// (unlike grpc-go)"

end Address

end StackMachine.Shell
