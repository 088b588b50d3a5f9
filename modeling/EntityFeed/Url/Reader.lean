import EntityFeed.Url.Basic

/-! Reading URLs. Six schemes are special: they have a syntax of their own, in which a backslash is
a slash and a host is a domain. All others share one syntax. -/
namespace EntityFeed.Url

/-- How the text behind a scheme is read. -/
inductive Dialect where
  | general
  | special (defaultPort : Nat)
  | file
  deriving DecidableEq, Repr

def Dialect.ofScheme (scheme : String) : Dialect :=
  match scheme with
  | "http" | "ws" => special 80
  | "https" | "wss" => special 443
  | "ftp" => special 21
  | "file" => file
  | _ => general

/-- The port that need not be written. -/
def Dialect.defaultPort? : Dialect → Option Nat
  | special n => some n
  | _ => none

def Dialect.isSlash (s : Dialect) (c : Char) : Bool := c == '/' || (s != .general && c == '\\')

def endsPath (c : Char) : Bool := c == '?' || c == '#'

def Dialect.endsAuthority (s : Dialect) (c : Char) : Bool := s.isSlash c || endsPath c

/-- What stands before and behind the last `@`. -/
def splitLastAt (cs : List Char) : Option (List Char × List Char) :=
  let behind := (cs.reverse.takeWhile (· != '@')).reverse
  if behind.length < cs.length then some (cs.take (cs.length - behind.length - 1), behind)
  else none

/-- Reads the name and the password of a user; an empty password counts as none. -/
def credentials (cs : List Char) : Authority :=
  let password := (cs.dropWhile (· != ':')).drop 1
  { username := encode .userinfo (cs.takeWhile (· != ':'))
    password := if password.isEmpty then none else some (encode .userinfo password) }

/-- Splits a host from its port; colons between brackets belong to the host. -/
def splitHost (inBrackets : Bool) : List Char → List Char × List Char
  | [] => ([], [])
  | c :: rest =>
    if c = ':' ∧ !inBrackets then ([], c :: rest)
    else
      let (host, port) := splitHost (c == '[' || (inBrackets && c != ']')) rest
      (c :: host, port)

def portNumber? (cs : List Char) : Option (Option Nat) :=
  if cs.isEmpty then some none
  else do
    let n ← decimal? cs
    if n < Nat.pow 2 16 then some (some n) else none

/-- Reads a host with its port behind what is known of an authority. Also gives the text that
follows the port within the authority: a backslash ends the port where it is no slash. -/
def hostAndPort? (s : Dialect) (a : Authority) (cs : List Char) :
    Option (Authority × List Char) := do
  let (host, rest) := splitHost false cs
  let port := (rest.drop 1).takeWhile (· != '\\')
  let after := (rest.drop 1).dropWhile (· != '\\')
  if host.isEmpty then
    guard (s = .general ∧ rest.isEmpty ∧ !a.hasCredentials)
    return (a, [])
  else
    let host ← if s = .general then Host.general? host else Host.domain? host
    let port ← portNumber? port
    return ({ a with host, port := if port = s.defaultPort? then none else port }, after)

/-- Reads the text between the slashes and the path, which `more` says is followed by anything. -/
def authority? (s : Dialect) (more : Bool) (cs : List Char) : Option (Authority × List Char) :=
  match splitLastAt cs with
  | none => hostAndPort? s {} cs
  | some (user, rest) =>
    if user.isEmpty ∧ rest.isEmpty ∧ more then none
    else hostAndPort? s (credentials user) rest

/-! Paths -/

def isSingleDot (s : String) : Bool := [".", "%2e", "%2E"].contains s

def isDoubleDot (s : String) : Bool :=
  ["..", "%2e.", "%2E.", ".%2e", ".%2E", "%2e%2e", "%2e%2E", "%2E%2e", "%2E%2E"].contains s

/-- Whether a segment names a drive: a letter with a colon or a bar behind it. -/
def isDrive : List Char → Bool
  | [c, d] => c.isAlpha && (d == ':' || d == '|')
  | _ => false

/-- Goes back by a segment. No way leads out of a drive. -/
def back (done : List String) : List String :=
  if isDrive (done.getLastD "").toList then done else done.dropLast

/-- Follows segments from those that are done. One dot stays and two go back; at the end either
leaves an empty segment. -/
def followDots (done : List String) : List String → List String
  | [] => done
  | [last] =>
    if isDoubleDot last then back done ++ [""]
    else if isSingleDot last then done ++ [""]
    else done ++ [last]
  | s :: rest =>
    if isDoubleDot s then followDots (back done) rest
    else if isSingleDot s then followDots done rest
    else followDots (done ++ [s]) rest

example : followDots [] ["c:", "..", "x", "..", "y"] = ["c:", "y"] := by decide +kernel

/-- The segments of a text behind its first slash. -/
def segmentsOf (s : Dialect) (cs : List Char) : List String :=
  let cs := if s = .general then cs else cs.map fun c => if c = '\\' then '/' else c
  followDots [] ((cs.splitOn '/').map (encode .path))

/-- Reads a path behind an authority. Only in the general syntax may it be empty. -/
def pathBehindAuthority (s : Dialect) (cs : List Char) : Path :=
  match cs with
  | [] => .segments (if s = .general then [] else [""])
  | c :: rest => .segments (segmentsOf s (if s.isSlash c then rest else cs))

/-- Drops empty segments in front of others. -/
def dropEmpty : List String → List String
  | "" :: s :: rest => dropEmpty (s :: rest)
  | names => names

/-- Cuts a text at the beginnings of the query and of the fragment. -/
def cutTail (cs : List Char) : List Char × Option (List Char) × Option (List Char) :=
  let path := cs.takeWhile (!endsPath ·)
  match cs.dropWhile (!endsPath ·) with
  | '?' :: rest =>
    let fragment := match rest.dropWhile (· != '#') with
      | _ :: f => some f
      | [] => none
    (path, some (rest.takeWhile (· != '#')), fragment)
  | _ :: f => (path, none, some f)
  | [] => (path, none, none)

/-- A URL whose text from the path on is `cs`. -/
def ofTail (scheme : String) (s : Dialect) (authority : Option Authority) (path : List Char → Path)
    (cs : List Char) : Url :=
  let (p, query, fragment) := cutTail cs
  { scheme, authority
    path := path p
    query := query.map (encode (if s = .general then .query else .specialQuery))
    fragment := fragment.map (encode .fragment) }

/-- Reads what follows the two slashes before an authority. -/
def withAuthority? (scheme : String) (s : Dialect) (cs : List Char) : Option Url := do
  let after := cs.dropWhile (!s.endsAuthority ·)
  let (a, rest) ← authority? s (!after.isEmpty) (cs.takeWhile (!s.endsAuthority ·))
  return ofTail scheme s (some a) (pathBehindAuthority s) (rest ++ after)

/-- Reads what follows the colon of a scheme in the general syntax. -/
def general? (scheme : String) (cs : List Char) : Option Url :=
  match cs with
  | '/' :: '/' :: rest => withAuthority? scheme .general rest
  | '/' :: rest =>
    some (ofTail scheme .general none (fun p => .segments (segmentsOf .general p)) rest)
  | _ => some (ofTail scheme .general none (fun p => .rootless (encode .controls p)) cs)

/-- The segments of a file's path, and whether they begin on a drive. A drive that anything follows
is written with a colon. -/
def fileSegments (cs : List Char) : List String × Bool :=
  match segmentsOf .file cs with
  | s :: t :: rest =>
    if isDrive s.toList then (String.ofList (s.toList.take 1 ++ [':']) :: t :: rest, true)
    else (dropEmpty (s :: t :: rest), false)
  | names => (names, false)

/-- The URL of a file whose text from the path on is `cs`. There is no host in front of a drive, and
`localhost` is as good as none. -/
def ofFileTail (scheme : String) (host : Option Host) (cs : List Char) : Url :=
  let (names, onDrive) := fileSegments (cutTail cs).1
  let host := if onDrive ∨ host = some (.name "localhost") then none else host
  ofTail scheme .file (some { host }) (fun _ => .segments names) cs

/-- Reads what follows `file:`. -/
def file? (scheme : String) (cs : List Char) : Option Url := do
  let withoutSlash (cs : List Char) : List Char :=
    match cs with
    | c :: rest => if Dialect.file.isSlash c then rest else cs
    | [] => []
  if (cs.takeWhile Dialect.file.isSlash).length < 2 then
    return ofFileTail scheme none (withoutSlash cs)
  else
    let cs := cs.drop 2
    let name := cs.takeWhile (!Dialect.file.endsAuthority ·)
    if isDrive name then return ofFileTail scheme none cs
    else
      let host ← if name.isEmpty then pure none else (Host.domain? name).map some
      return ofFileTail scheme host (withoutSlash (cs.drop name.length))

def inScheme (c : Char) : Bool := c.isAlphanum || c == '+' || c == '-' || c == '.'

/-- The text as it is read: without blanks and controls at its ends, and without tabs and line ends.
-/
def stripped (cs : List Char) : List Char :=
  let blank (c : Char) : Bool := c.toNat ≤ 0x20
  (((cs.dropWhile blank).reverse.dropWhile blank).reverse).filter fun c =>
    c != '\t' && c != '\n' && c != '\r'

def read? (text : String) : Option Url :=
  let cs := stripped text.toList
  let name := cs.takeWhile inScheme
  match name, cs.dropWhile inScheme with
  | first :: _, ':' :: rest =>
    if first.isAlpha then
      let scheme := String.ofList (name.map Char.toLower)
      match Dialect.ofScheme scheme with
      | .general => general? scheme rest
      | .file => file? scheme rest
      | s => withAuthority? scheme s (rest.dropWhile s.isSlash)
    else none
  | _, _ => none

end EntityFeed.Url
