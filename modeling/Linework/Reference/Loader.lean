import Linework.PictureFile.Format
import Linework.Reference.Picture
import Linework.Storage.FileProgram

/-!
# `Linework.Reference.Loader`: where an address leads, and what it brings

An address that names the web's protocol leads there. Every other one is a path
relative to a base directory, with or without the protocol of local files before
it.

A picture is loaded by reading the file that its address leads to; its bytes have to
be a whole picture, of which the size is kept. The web is out of reach: an address
there fails, in one way when it names no host and in another when it does.
-/

set_option autoImplicit false

namespace Linework

/-- Where an address leads. -/
inductive Source where
  | web (url : String)
  | file (path : String)
  deriving DecidableEq, Repr

namespace Source

/-- The beginnings of an address on the web, in any case. -/
def webSchemes : List String := ["http://", "https://"]

/-- Whether an address leads to the web. -/
def isWeb (url : String) : Bool :=
  webSchemes.any fun scheme => scheme.toList.isPrefixOf (url.toList.map Char.toLower)

/-- Where an address leads, from a base directory. -/
def ofUrl (url base : String) : Source :=
  if isWeb url then web url
  else file (Path.join base ((Text.afterHead? "file://" url).getD url))

/-- The part of an address on the web that says whom to ask: after the slashes
that follow the protocol, in either direction, up to the path, query or
fragment. -/
def authority (url : String) : List Char :=
  let afterScheme := (url.toList.dropWhile (· ≠ ':')).drop 1
  let fromHost := afterScheme.dropWhile fun c => c = '/' || c = '\\'
  fromHost.takeWhile fun c => !(c = '/' || c = '\\' || c = '?' || c = '#')

/-- Whether an address on the web names no host, so that nobody can be asked. The
host stands after the user's name, if there is one, and before a colon. -/
def lacksHost (url : String) : Bool :=
  let host := ((authority url).reverse.takeWhile (· ≠ '@')).reverse
  match host with
  | [] => true
  | c :: _ => c = ':'

end Source

namespace Loader

/-- Why an address on the web brings nothing. -/
def webFailure (url : String) : Failure :=
  .referenceFailed url
    (if Source.lacksHost url then "request failed: builder error"
     else "request failed: error sending request for url (" ++ url ++ ")")

/-- The picture that a file's bytes hold. -/
def decode (url : String) (data : ByteArray) : Except Failure Picture :=
  match PictureFile.size data.toList with
  | .ok (width, height) => .ok ⟨url, width, height⟩
  | .error fault => .error (.referenceFailed url ("not a supported image: " ++ fault.message))

/-- Loads the picture that an address leads to, from a base directory. -/
def load (base url : String) : FileProgram (Except Failure Picture) :=
  match Source.ofUrl url base with
  | .web url => return .error (webFailure url)
  | .file path =>
    .read path fun
      | .error e => .done (.error (.referenceFailed url (path ++ ": " ++ e.message)))
      | .ok data => .done (decode url data)

/-- Loads addresses one after another and keeps what each of them brought. -/
def loadAll (base : String) : List String → FileProgram (List (String × Except Failure Picture))
  | [] => return []
  | url :: rest => do
    let outcome ← load base url
    let others ← loadAll base rest
    return (url, outcome) :: others

end Loader

end Linework
