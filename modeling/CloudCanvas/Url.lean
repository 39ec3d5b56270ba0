import CloudCanvas.Url.Host

/-!
# Addresses

An address has a scheme, perhaps an authority, a path, and perhaps a query and a
fragment.  Reading one brings it to a normal form: blanks around it and line ends
inside it go, the scheme is in lower case, a usual port is left out, dot segments
are resolved and characters are encoded where they have to be.  In the schemes of
the web a backslash is a slash, and any number of them stands in front of the
host.  The path of a file may start with the letter of a drive, which stands for the
computer as well and has nothing above it.

## Main definitions

* `Url`, `Url.parse`, `Url.text`.
* `Url.push?`: one more segment at the end of the path.
-/

namespace CloudCanvas

/-- Who and where: a user, a host and a port that is not the usual one. -/
structure Authority where
  username : List Char
  password : Option (List Char)
  host : Host
  port : Option Nat
deriving DecidableEq

/-- A path of segments, each behind a slash, or a text that is no such path. -/
inductive UrlPath where
  | segments (list : List (List Char))
  | opaqueText (text : List Char)
deriving DecidableEq

/-- An address. -/
structure Url where
  scheme : String
  authority : Option Authority
  path : UrlPath
  query : Option (List Char)
  fragment : Option (List Char)
deriving DecidableEq

namespace Url

/-! ## Schemes -/

/-- The usual port of a scheme of the web. -/
def usualPort? : String → Option Nat
  | "http" | "ws" => some 80
  | "https" | "wss" => some 443
  | "ftp" => some 21
  | _ => none

/-- Whether a scheme gives slashes and hosts the meaning they have on the web. -/
def isSpecial (scheme : String) : Bool :=
  (usualPort? scheme).isSome || scheme == "file"

/-- Whether a character parts segments. -/
def isSlash (special : Bool) (c : Char) : Bool :=
  c == '/' || (special && c == '\\')

/-- The scheme of an address and what follows its colon. -/
def scheme? (cs : List Char) : Option (String × List Char) :=
  let isPart (c : Char) : Bool := c.isAlphanum || c == '+' || c == '-' || c == '.'
  let name := cs.takeWhile isPart
  match name, cs.dropWhile isPart with
  | first :: _, ':' :: rest =>
    if first.isAlpha then some (String.ofList (name.map Char.toLower), rest) else none
  | _, _ => none

/-! ## Authorities -/

/-- The texts before and after the last character of a kind. -/
def splitLast (c : Char) (cs : List Char) : Option (List Char × List Char) :=
  let after := (cs.reverse.takeWhile (· != c)).reverse
  if after.length = cs.length then none
  else some (cs.take (cs.length - after.length - 1), after)

/-- The texts of a host and of what follows it: a colon outside brackets ends a
host. -/
def splitHost (inside : Bool) : List Char → List Char × List Char
  | [] => ([], [])
  | c :: rest =>
    if c == ':' && !inside then ([], c :: rest)
    else
      let (host, after) :=
        splitHost (if c == '[' then true else if c == ']' then false else inside) rest
      (c :: host, after)

/-- A port of digits below `2 ^ 16`; an empty one, like the usual one, is none. -/
def parsePort (scheme : String) (cs : List Char) : Except UrlFault (Option Nat) :=
  if cs.isEmpty then .ok none
  else match decimal? cs with
    | some port =>
      if 0x10000 ≤ port then .error .invalidPort
      else if usualPort? scheme = some port then .ok none
      else .ok (some port)
    | none => .error .invalidPort

/-- The user name and password in front of a host. -/
def parseUser (cs : List Char) : List Char × Option (List Char) :=
  let name := cs.takeWhile (· != ':')
  let password := (cs.dropWhile (· != ':')).drop 1
  (Percent.encode Percent.inUserinfo name,
    if password.isEmpty then none else some (Percent.encode Percent.inUserinfo password))

/-- An authority: what stands between the slashes in front of it and the path, and
whether it is the end of the address.  A user needs a host to be at. -/
def parseAuthority (international : NameTable) (scheme : String) (isEnd : Bool)
    (cs : List Char) : Except UrlFault Authority := do
  if cs == ['@'] && !isEnd then throw .emptyHost
  let (user, place) := (splitLast '@' cs).getD ([], cs)
  let (host, port) := splitHost false place
  let parsedHost ← if isSpecial scheme then Host.parse international host
    else Host.parseOpaque host
  let (username, password) := parseUser user
  let isNamed := !username.isEmpty || password.isSome
  if host.isEmpty && (!port.isEmpty || isNamed) then throw .emptyHost
  let port ← parsePort scheme (port.drop 1)
  return ⟨username, password, parsedHost, port⟩

/-! ## Paths -/

/-- Whether a segment stands for the same place: a dot, perhaps encoded. -/
def isSingleDot (segment : List Char) : Bool :=
  [".", "%2e"].contains (String.ofList (segment.map Char.toLower))

/-- Whether a segment stands for the place above: two dots, perhaps encoded. -/
def isDoubleDot (segment : List Char) : Bool :=
  ["..", ".%2e", "%2e.", "%2e%2e"].contains (String.ofList (segment.map Char.toLower))

/-- Whether a segment is the letter of a drive, with a colon or a bar behind it. -/
def isDrive : List Char → Bool
  | [letter, mark] => letter.isAlpha && (mark == ':' || mark == '|')
  | _ => false

/-- A path with one more segment.  A segment of dots is resolved; the last one
leaves an empty segment in its place.  Nothing is above a drive, which is written with a
colon. -/
def addSegment (ofFile : Bool) (path : List (List Char)) (last : Bool) (segment : List Char) :
    List (List Char) :=
  if isDoubleDot segment then
    (if ofFile && path.length == 1 && path.all isDrive then path else path.dropLast)
      ++ (if last then [[]] else [])
  else if isSingleDot segment then path ++ (if last then [[]] else [])
  else if ofFile && path.isEmpty && isDrive segment then [segment.take 1 ++ [':']]
  else path ++ [Percent.encode Percent.inPath segment]

/-- A path with more segments. -/
def addSegments (ofFile : Bool) (path : List (List Char)) : List (List Char) → List (List Char)
  | [] => path
  | [segment] => addSegment ofFile path true segment
  | segment :: rest => addSegments ofFile (addSegment ofFile path false segment) rest

/-- The segments of a path that is not empty or belongs to a scheme of the web. -/
def parseSegments (ofFile special : Bool) (cs : List Char) : List (List Char) :=
  let cs := match cs with
    | c :: rest => if isSlash special c then rest else c :: rest
    | [] => []
  addSegments ofFile [] (cs.splitOnP (isSlash special))

/-- The path behind an authority. -/
def parsePath (special : Bool) (cs : List Char) : UrlPath :=
  if cs.isEmpty && !special then .segments [] else .segments (parseSegments false special cs)

/-! ## Whole addresses -/

/-- Whether a character is a space or a control character below it. -/
def isOuterBlank (c : Char) : Bool :=
  c.toNat ≤ 0x20

/-- A text without tabs and line ends. -/
def withoutBreaks (cs : List Char) : List Char :=
  cs.filter (fun c => !(c == '\t' || c == '\n' || c == '\r'))

/-- The text before the fragment and the query, and these. -/
def splitTail (cs : List Char) : List Char × Option (List Char) × Option (List Char) :=
  let main := cs.takeWhile (· != '#')
  let fragment := match cs.dropWhile (· != '#') with
    | _ :: rest => some rest
    | [] => none
  let query := match main.dropWhile (· != '?') with
    | _ :: rest => some rest
    | [] => none
  (main.takeWhile (· != '?'), query, fragment)

/-- A path of a file without the empty segments at its start, unless it has no other. -/
def filePath (segments : List (List Char)) : UrlPath :=
  match segments.dropWhile List.isEmpty with
  | [] => .segments [[]]
  | list => .segments list

/-- The authority and the path of an address to a file.  This computer is the host
that is left out, and so is any host of a drive. -/
def parseFile (international : NameTable) (cs : List Char) :
    Except UrlFault (Option Authority × UrlPath) := do
  if (cs.takeWhile (isSlash true)).length < 2 then
    return (none, filePath (parseSegments true true cs))
  let rest := cs.drop 2
  let host := rest.takeWhile (fun c => !isSlash true c)
  if isDrive host then return (none, filePath (parseSegments true true rest))
  let segments := parseSegments true true (rest.drop host.length)
  if host.isEmpty then return (none, filePath segments)
  let host ← Host.parse international host
  if host = .name "localhost".toList || (segments.take 1).any isDrive then
    return (none, filePath segments)
  return (some ⟨[], none, host, none⟩, filePath segments)

/-- The authority and the path of an address, and whether they are its end. -/
def parseMain (international : NameTable) (scheme : String) (isEnd : Bool) (cs : List Char) :
    Except UrlFault (Option Authority × UrlPath) := do
  let special := isSpecial scheme
  let located (rest : List Char) : Except UrlFault (Option Authority × UrlPath) := do
    let authority := rest.takeWhile (fun c => !isSlash special c)
    let path := rest.drop authority.length
    let parsed ← parseAuthority international scheme (isEnd && path.isEmpty) authority
    return (some parsed, parsePath special path)
  if scheme = "file" then parseFile international cs
  else if special then located (cs.dropWhile (isSlash true))
  else match cs with
    | '/' :: '/' :: rest => located rest
    | '/' :: _ => return (none, parsePath false cs)
    | cs => return (none, .opaqueText cs)

/-- The address that a text is, given what international names are in ASCII. -/
def parse (international : NameTable) (s : String) : Except UrlFault Url :=
  let cs := (s.toList.dropWhile isOuterBlank).reverse.dropWhile isOuterBlank |>.reverse
  match scheme? (withoutBreaks cs) with
  | none => .error .noScheme
  | some (scheme, rest) => do
    let (main, query, fragment) := splitTail rest
    let (authority, path) ← parseMain international scheme (query.isNone && fragment.isNone) main
    return { scheme, authority, path
             query := query.map (Percent.encode (Percent.inQuery (isSpecial scheme)))
             fragment := fragment.map (Percent.encode Percent.inFragment) }

/-- The user and password of an authority as they are written. -/
def userText (a : Authority) : List Char :=
  match a.password with
  | some password => a.username ++ ':' :: (password ++ ['@'])
  | none => if a.username.isEmpty then [] else a.username ++ ['@']

/-- An authority as it is written. -/
def authorityText (a : Authority) : List Char :=
  let port := match a.port with
    | some port => ':' :: Nat.toDigits 10 port
    | none => []
  '/' :: '/' :: (userText a ++ a.host.text ++ port)

/-- A path as it is written. -/
def pathText : UrlPath → List Char
  | .segments list => list.flatMap ('/' :: ·)
  | .opaqueText text => text

/-- What stands in front of a path in place of an authority.  Without it an empty
first segment would look like the start of one. -/
def placeholder (scheme : String) (path : UrlPath) : List Char :=
  if scheme = "file" then ['/', '/']
  else match path with
    | .segments ([] :: _ :: _) => ['/', '.']
    | _ => []

/-- An address as it is written. -/
def text (u : Url) : String :=
  let place := match u.authority with
    | some a => authorityText a
    | none => placeholder u.scheme u.path
  let query := match u.query with
    | some query => '?' :: query
    | none => []
  let fragment := match u.fragment with
    | some fragment => '#' :: fragment
    | none => []
  String.ofList (u.scheme.toList ++ ':' :: (place ++ pathText u.path ++ query ++ fragment))

/-! ## Growing a path -/

/-- A path without an empty segment at its end, unless it has no other. -/
def dropEmptyLast (segments : List (List Char)) : List (List Char) :=
  if segments.length ≤ 1 || segments.getLast? != some [] then segments else segments.dropLast

/-- A path with a name as one more segment.  The path that is a single slash
counts as empty.  A name of dots adds nothing, but one that is so only without its
tabs and line ends is resolved like any other dots. -/
def pushSegment (special : Bool) (segments : List (List Char)) (name : String) :
    List (List Char) :=
  if name = "." || name = ".." then segments
  else
    let segments := if segments = [[]] then [] else segments
    match withoutBreaks name.toList with
    | ['.'] => segments ++ [[]]
    | ['.', '.'] => segments.dropLast ++ [[]]
    | cs => segments ++ [Percent.encode (Percent.inSegment special) cs]

/-- The address with names added to the end of its path, in place of an empty
segment there; none if it has no path of segments. -/
def push? (u : Url) (names : List String) : Option Url :=
  match u.path with
  | .segments list =>
    let segments := names.foldl (pushSegment (isSpecial u.scheme)) (dropEmptyLast list)
    some { u with path := .segments segments }
  | .opaqueText _ => none

/-- Whether the bytes that encoded characters stand for are a text. -/
def isText (cs : List Char) : Bool :=
  (decodeUtf8? ⟨(Percent.decode cs).toArray⟩).isSome

/-- Whether an authority has a user or password that can be taken out of the
address and sent beside it. -/
def hasTextUser (a : Authority) : Bool :=
  isText a.username && (!a.username.isEmpty || (a.password.map isText).getD false)

/-- The address without a user and password that are sent beside it. -/
def anonymous (u : Url) : Url :=
  { u with authority := u.authority.map (fun a =>
      if hasTextUser a then { a with username := [], password := none } else a) }

end Url

end CloudCanvas
