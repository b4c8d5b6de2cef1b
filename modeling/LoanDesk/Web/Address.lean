import LoanDesk.Text.Percent
import LoanDesk.Value.Number
import LoanDesk.Web.Host

/-
# Addresses

An address may name a scheme, a user, a host and a port in front of its path, and a query
behind it. One that names a scheme and a host is taken as it is, if the scheme is one of
the web; of any other the path counts from the top of the site. A step of one point
stays where it is, and one of two points goes back, but not above the top. Not every
text is an address: it may not be too long, nor hold a control character, a port that
is no number, a host that is not what it looks like, or a path in front of which an
empty scheme or host could be left out.

Key definitions: `Web.Address`, `Web.Address.of`, `Web.Address.target`,
`Web.parameters`.
-/

namespace LoanDesk
namespace Web

/-- The parameters of a query. -/
def parameters (cs : List Char) : List (String × String) :=
  ((parts '&' cs).filter fun p => !p.isEmpty).map fun p =>
    let blanks := p.map fun c => if c = '+' then ' ' else c
    let (name, value) := cut '=' blanks
    (Text.unpercent name, Text.unpercent value)

/-- An address in its parts. -/
structure Address where
  scheme : List Char := []
  user : List Char := []
  host : List Char := []
  port : Option Int := none
  path : List Char
  query : List Char := []
deriving DecidableEq, Repr

namespace Address

/-- The most characters of an address. -/
def room : Nat := 0x10000

/-- The character is a plain one that cannot be printed. -/
def isControl (c : Char) : Bool :=
  c.toNat < 32 || c.toNat == 127

/-- The character can stand in a scheme, behind a letter. -/
def isSchemeChar (c : Char) : Bool :=
  c.isAlphanum || c == '+' || c == '.' || c == '-'

/-- The text is a scheme, or there is none. -/
def isScheme : List Char → Bool
  | [] => true
  | c :: rest => c.isAlpha && rest.all isSchemeChar

/-- The scheme in front of a colon, and the rest. -/
def splitScheme (cs : List Char) : List Char × List Char :=
  if cs.contains ':' && isScheme (cut ':' cs).1 then cut ':' cs else ([], cs)

/-- What stands between two slashes and the path, and the path. -/
def splitFront : List Char → List Char × List Char
  | '/' :: '/' :: rest => (rest.takeWhile (· != '/'), rest.dropWhile (· != '/'))
  | path => ([], path)

/-- The user in front of the last at sign, and the rest. -/
def splitUser (cs : List Char) : List Char × List Char :=
  if cs.contains '@' then
    ((cs.reverse.dropWhile (· != '@')).drop 1 |>.reverse, (cs.reverse.takeWhile (· != '@')).reverse)
  else ([], cs)

/-- The host, which may stand in brackets, and the rest. -/
def splitHost (cs : List Char) : List Char × List Char :=
  if cs.head? == some '[' && cs.contains ']' then
    let rest := (cs.reverse.takeWhile (· != ']')).reverse
    (cs.take (cs.length - rest.length), rest)
  else (cs.takeWhile (· != ':'), cs.dropWhile (· != ':'))

/-- The port behind a colon or none, if any is named. -/
def portOf (cs : List Char) : Except Fault (Option Int) :=
  let digits := if cs.head? == some ':' then cs.drop 1 else cs
  if digits.isEmpty then .ok none
  else
    match integerOfText? (String.ofList digits) with
    | some i => .ok (some i)
    | none => .error .noAddress

/-- The address names who is asked. -/
def hasAuthority (a : Address) : Bool :=
  !a.user.isEmpty || !a.host.isEmpty || a.port.isSome

/-- The path can stand behind what is in front of it. -/
def isGoodPath (a : Address) : Bool :=
  a.hasAuthority || !a.scheme.isEmpty ||
    !("//".toList.isPrefixOf a.path || ":".toList.isPrefixOf a.path)

/-- The schemes of the web. -/
def schemes : List String := ["http", "https"]

/-- The schemes of lasting connections, which are not asked but opened. -/
def lastingSchemes : List String := ["ws", "wss"]

/-- The address names a scheme and a host. -/
def isWhole (a : Address) : Bool :=
  !a.scheme.isEmpty && !a.host.isEmpty

/-- An address can be asked: if it is whole its scheme is one of the web, and no colon in its host
hides the port. -/
def checkReach (a : Address) : Except Fault Unit :=
  let scheme := String.ofList a.scheme
  if !a.isWhole then .ok ()
  else if !(schemes ++ lastingSchemes).contains scheme then .error .unknownScheme
  else if a.host.contains ':' then .error .noMeaning
  else if lastingSchemes.contains scheme then .error .notAsked
  else .ok ()

/-- The address of a text. What follows a hash is no concern of the site. -/
def of (s : String) : Except Fault Address := do
  if room < s.length || s.toList.any isControl then throw .noAddress
  let (front, query) := cut '?' (cut '#' s.toList).1
  let (scheme, rest) := splitScheme front
  let (authority, path) := splitFront rest
  let (user, place) := splitUser authority
  let (host, port) := splitHost place
  let a : Address :=
    { scheme := Text.lower scheme, user, host, port := ← portOf port, path, query }
  if !Host.isGood host || !a.isGoodPath then throw .noAddress
  return a

/-- One step of a path behind the steps before it, the last of which comes first. -/
def step (done : List (List Char)) (next : List Char) : List (List Char) :=
  if next = ['.'] then done
  else if next = ['.', '.'] then
    match done with
    | [] => []
    | [top] => if top = [] then [top] else []
    | _ :: before => before
  else next :: done

/-- The path without points for steps. -/
def settled (path : List Char) : List Char :=
  List.intercalate ['/'] ((parts '/' path).foldl step []).reverse

/-- The path from the top of the site. -/
def target (a : Address) : List Char :=
  let own := if a.scheme.isEmpty && !a.hasAuthority then a.path else settled a.path
  let path := if a.isWhole then own else settled ('/' :: own.dropWhile (· == '/'))
  if path.isEmpty then ['/'] else path

end Address
end Web
end LoanDesk
