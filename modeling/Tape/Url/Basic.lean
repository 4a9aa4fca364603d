import Tape.Url.Address
import Tape.Url.Domain
import Tape.Word

/-!
# URLs

A text is a URL when it has a scheme and, where an authority follows, a host and a port that are
well formed. What follows the authority can have any form. Blanks around the text and line breaks
in it count for nothing.
-/

namespace Tape.Url

inductive Flaw where
  | noScheme
  | emptyHost
  | badDomain
  | badPort
  | badDottedAddress
  | badGroupedAddress
  | badHostCharacter
  deriving DecidableEq, Repr

def Flaw.message : Flaw → String
  | noScheme => "relative URL without a base"
  | emptyHost => "empty host"
  | badDomain => "invalid international domain name"
  | badPort => "invalid port number"
  | badDottedAddress => "invalid IPv4 address"
  | badGroupedAddress => "invalid IPv6 address"
  | badHostCharacter => "invalid domain character"

/-! ## Schemes -/

def isSchemeChar (c : Char) : Bool :=
  c.isAlpha || c.isDigit || c = '+' || c = '-' || c = '.'

/-- The scheme in lower case and what follows its colon. -/
def splitScheme? (cs : List Char) : Option (List Char × List Char) :=
  match cs with
  | c :: _ =>
      if c.isAlpha then
        match cs.dropWhile isSchemeChar with
        | ':' :: rest => some ((cs.takeWhile isSchemeChar).map Char.toLower, rest)
        | _ => none
      else none
  | [] => none

/-- Schemes whose authority is looked for whatever slashes stand before it. -/
def isNetScheme (scheme : String) : Bool := ["http", "https", "ws", "wss", "ftp"].contains scheme

/-! ## Hosts -/

def readBracketed (host : List Char) : Except Flaw Unit :=
  if host.getLast? = some ']' && isGroupedAddress (host.drop 1).dropLast then .ok ()
  else .error .badGroupedAddress

/-- The host of a scheme with hosts of its own kind. -/
def readNetHost (host : List Char) : Except Flaw Unit :=
  if host.head? = some '[' then readBracketed host
  else
    match domain? host with
    | none => .error .badDomain
    | some [] => .error .emptyHost
    | some name =>
        if endsInNumber name && !isDottedAddress name then .error .badDottedAddress else .ok ()

def isForbiddenInHost (c : Char) : Bool :=
  c.toNat = 0 || [' ', '#', '/', ':', '<', '>', '?', '@', '[', '\\', ']', '^', '|'].contains c

def readPlainHost (host : List Char) : Except Flaw Unit :=
  if host.head? = some '[' then readBracketed host
  else if host.any isForbiddenInHost then .error .badHostCharacter
  else .ok ()

/-! ## Authorities -/

def isAuthorityEnd (net : Bool) (c : Char) : Bool :=
  c = '/' || c = '?' || c = '#' || (net && c = '\\')

/-- The host of an authority: up to a colon outside brackets. -/
def hostLength (inBrackets : Bool) : List Char → Nat
  | [] => 0
  | c :: rest =>
      if c = ':' && !inBrackets then 0
      else hostLength (if c = '[' then true else if c = ']' then false else inBrackets) rest + 1

def readPort (cs : List Char) : Except Flaw Unit :=
  match cs with
  | ':' :: digits =>
      let digits := digits.takeWhile (· ≠ '\\')
      if digits.all Char.isDigit && Text.numeral 0 digits < Word.bound16 then .ok ()
      else .error .badPort
  | _ => .ok ()

/-- Host and port, after a user part if `user` is not empty. -/
def readHostAndPort (net user : Bool) (cs : List Char) : Except Flaw Unit := do
  let host := cs.take (hostLength false cs)
  let rest := cs.drop host.length
  if net then
    if host = [] then .error .emptyHost
    else readNetHost host
  else
    readPlainHost host
    if host = [] && (rest ≠ [] || user) then .error .emptyHost
  readPort rest

/-- The text before the last at sign of an authority, and the text after it. -/
def splitUser (cs : List Char) : Option (List Char × List Char) :=
  let after := (cs.reverse.takeWhile (· ≠ '@')).reverse
  if after.length = cs.length then none
  else some (cs.take (cs.length - after.length - 1), after)

def readAuthority (net : Bool) (cs : List Char) : Except Flaw Unit :=
  let authority := cs.takeWhile fun c => !isAuthorityEnd net c
  let more := authority.length < cs.length
  match splitUser authority with
  | none => readHostAndPort net false authority
  | some ([], rest) =>
      if rest = [] && more then .error .emptyHost else readHostAndPort net false rest
  | some (user, rest) => readHostAndPort net (user ≠ [':']) rest

/-! ## Files -/

def isSlash (c : Char) : Bool := c = '/' || c = '\\'

def isDrive : List Char → Bool
  | [a, b] => a.isAlpha && (b = ':' || b = '|')
  | _ => false

def readFile (cs : List Char) : Except Flaw Unit :=
  match cs with
  | a :: b :: rest =>
      if isSlash a && isSlash b then
        let host := rest.takeWhile fun c => !(isSlash c || c = '?' || c = '#')
        if host = [] || isDrive host then .ok () else readNetHost host
      else .ok ()
  | _ => .ok ()

/-! ## Whole texts -/

def isEdge (c : Char) : Bool := c.toNat ≤ 32

def isLineBreak (c : Char) : Bool := c = '\t' || c = '\n' || c = '\r'

/-- The text without what counts for nothing. -/
def significant (s : String) : List Char :=
  let trimmed := ((s.toList.dropWhile isEdge).reverse.dropWhile isEdge).reverse
  trimmed.filter fun c => !isLineBreak c

/-- The scheme of a URL. -/
def scheme (s : String) : Except Flaw String :=
  match splitScheme? (significant s) with
  | none => .error .noScheme
  | some (name, rest) => do
      let name := String.ofList name
      if name = "file" then readFile rest
      else if isNetScheme name then readAuthority true (rest.dropWhile isSlash)
      else
        match rest with
        | '/' :: '/' :: authority => readAuthority false authority
        | _ => .ok ()
      return name

end Tape.Url
