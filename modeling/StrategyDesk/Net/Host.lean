import StrategyDesk.Net.Address
import StrategyDesk.Text.Case

/-!
The host of a URL, and whether it is private. A URL that cannot be split, or that has no host,
counts as private; a name is private if it is a blocked one or has a blocked ending, and an
address is private unless it belongs to the public internet.
-/

set_option autoImplicit false

namespace StrategyDesk.Net
open Text

/-- Control characters and the space, which may stand in front of a URL. -/
def isControlOrSpace (c : Char) : Bool := c.toNat ≤ 0x20

/-- Tabs and line breaks count for nothing anywhere in a URL. -/
def isIgnored (c : Char) : Bool := c == '\t' || c == '\r' || c == '\n'

def clean (url : List Char) : List Char :=
  (url.dropWhile isControlOrSpace).filter fun c => !isIgnored c

def isSchemeChar (c : Char) : Bool := c.isAlphanum || c == '+' || c == '.' || c == '-'

def isScheme (cs : List Char) : Bool :=
  match cs with
  | [] => false
  | c :: _ => c.isAlpha && cs.all isSchemeChar

def afterScheme (url : List Char) : List Char :=
  match cut ':' url with
  | (scheme, some rest) => if isScheme scheme then rest else url
  | _ => url

def endsAuthority (c : Char) : Bool := c == '/' || c == '?' || c == '#'

def authority? (url : List Char) : Option (List Char) :=
  match afterScheme (clean url) with
  | '/' :: '/' :: rest => some (rest.takeWhile fun c => !endsAuthority c)
  | _ => none

def hostPort (authority : List Char) : List Char :=
  (authority.reverse.takeWhile (· ≠ '@')).reverse

def isFutureLiteral (cs : List Char) : Bool :=
  match cs with
  | 'v' :: rest =>
    match cut '.' rest with
    | (version, some text) =>
      !version.isEmpty && version.all (fun c => (hexDigit? c).isSome) && !text.isEmpty
    | _ => false
  | _ => false

def isBracketable (cs : List Char) : Bool :=
  match cs with
  | 'v' :: _ => isFutureLiteral cs
  | _ => (dotted? cs).isNone && (scoped? cs).isSome

def bracketsFit (authority : List Char) : Bool :=
  if authority.contains '[' || authority.contains ']' then
    authority.contains '[' && authority.contains ']' &&
      match cut '[' (hostPort authority) with
      | (before, some inner) =>
        match cut ']' inner with
        | (host, some after) =>
          before.isEmpty && (after.isEmpty || after.head? == some ':') && isBracketable host
        | (host, none) => before.isEmpty && isBracketable host
      | (whole, none) => isBracketable (cut ':' whole).1
  else true

/-- The characters whose compatibility form holds a mark with a meaning in URLs. -/
def disguisedMarks : List Nat :=
  [0x2047, 0x2048, 0x2049, 0x2100, 0x2101, 0x2105, 0x2106, 0x2A74, 0xFE13, 0xFE16, 0xFE55,
   0xFE56, 0xFE5F, 0xFE6B, 0xFF03, 0xFF0F, 0xFF1A, 0xFF1F, 0xFF20]

def isDisguised (c : Char) : Bool := disguisedMarks.contains c.toNat

/-- The host inside an authority: what stands in brackets, or before the port. -/
def hostOf (authority : List Char) : List Char :=
  match cut '[' (hostPort authority) with
  | (_, some inner) => (cut ']' inner).1
  | (whole, none) => (cut ':' whole).1

def lowerHost (host : List Char) : List Char :=
  match cut '%' host with
  | (name, none) => lowerChars name
  | (name, some scope) => lowerChars name ++ '%' :: scope

/-- The host of a URL, unless the URL has none or cannot be split. -/
def host? (url : List Char) : Option (List Char) :=
  match authority? url with
  | none => none
  | some authority =>
    if bracketsFit authority && !authority.any isDisguised then
      match lowerHost (hostOf authority) with
      | [] => none
      | host => some host
    else none

def blockedHosts : List (List Char) :=
  ["localhost".toList, "0.0.0.0".toList, "[::1]".toList, "::1".toList]

def blockedEndings : List (List Char) := [".local".toList, ".internal".toList]

def isBlockedName (host : List Char) : Bool := blockedEndings.any fun e => e.isSuffixOf host

/-- Whether a host in lower case and without trailing points is private. -/
def isPrivateHost (host : List Char) : Bool :=
  if blockedHosts.contains host then true
  else match address? host with
    | some a => !a.isPublic
    | none => isBlockedName host

def judged (host : List Char) : List Char := trimEnd (· == '.') (lowerChars host)

def isPrivate (url : List Char) : Bool :=
  match host? url with
  | none => true
  | some host => isPrivateHost (judged host)

def isPrivateUrl (url : String) : Bool := isPrivate url.toList

end StrategyDesk.Net
