import EntityFeed.Url.Host

/-! URLs in their parts, and their text. -/
namespace EntityFeed

namespace Url

structure Authority where
  username : String := ""
  /-- Never empty if it is there. -/
  password : Option String := none
  /-- Absent if it is empty. -/
  host : Option Host := none
  port : Option Nat := none
  deriving DecidableEq, Repr

def Authority.hasCredentials (a : Authority) : Bool := a.username != "" || a.password.isSome

def Authority.text (a : Authority) : String :=
  a.username ++ ((a.password.map (":" ++ ·)).getD "") ++ (if a.hasCredentials then "@" else "") ++
    ((a.host.map Host.text).getD "") ++ ((a.port.map fun n => ":" ++ toString n).getD "")

inductive Path where
  /-- The text behind the colon of a scheme that no slash follows. -/
  | rootless (s : String)
  /-- Segments, with a slash before each. -/
  | segments (names : List String)
  deriving DecidableEq, Repr

def Path.text : Path → String
  | rootless s => s
  | segments names => String.join (names.map ("/" ++ ·))

end Url

structure Url where
  scheme : String
  authority : Option Url.Authority
  path : Url.Path
  query : Option String
  fragment : Option String
  deriving DecidableEq, Repr

namespace Url

/-- The text between the scheme and the path. Without an authority a path must not begin like one.
-/
def authorityText (u : Url) : String :=
  match u.authority with
  | some a => "//" ++ a.text
  | none => if u.path.text.startsWith "//" then "/." else ""

def text (u : Url) : String :=
  u.scheme ++ ":" ++ u.authorityText ++ u.path.text ++ ((u.query.map ("?" ++ ·)).getD "") ++
    ((u.fragment.map ("#" ++ ·)).getD "")

/-- The URL with asterisks for its password, if it has one. -/
def masked (u : Url) : Url :=
  { u with
    authority := u.authority.map fun a =>
      { a with password := a.password.map fun _ => "***" } }

end Url
end EntityFeed
