import TilePyramid.Config.Libraries

/-!
# Reading configurations

A configuration text is read in steps: places marked in the older way are refused, the template
is filled in, the document is parsed, and its value is read as settings. `Config.parse` takes a
text and `Config.read` the bytes of a file. How the value is read is given by `decode`, which for
settings described by a kind is that of the libraries.
-/

namespace TilePyramid.Config

/-- Why a configuration cannot be read. -/
inductive ReadError where
  /-- There is no file. -/
  | noFile
  /-- The bytes of the file are no text. -/
  | noText
  /-- The pattern for places in the older way is refused. -/
  | pattern (text : String)
  /-- A place is marked in the older way. -/
  | oldPlace
  /-- The template is malformed, or a place in it has no value. -/
  | template (text : String)
  /-- The text from the file with this name is no document. -/
  | document (path text : String)
  /-- The document in the file with this name does not fit. -/
  | mismatch (path text : String)
deriving DecidableEq, Repr

/-- The message about a configuration that cannot be read. -/
def ReadError.message : ReadError → String
  | noFile => "Could not find config file!"
  | noText => "Error while reading config: [stream did not contain valid UTF-8]"
  | pattern text => text
  | oldPlace =>
      "Replace old environment variable syntax $\x7bVARNAME\x7d with " ++
        "`\x7b\x7benv.VARNAME\x7d\x7d`"
  | template text => "Template error: " ++ text
  | document path text => path ++ " - " ++ text
  | mismatch path text => path ++ " - " ++ text

/-- The pattern for places marked in the older way: a dollar sign and a name in braces. -/
def oldPlacePattern : String := "\\$\\\x7b([[:alnum:]]+)\\\x7d"

variable {α : Type}

/-- A text with a place marked in the older way is refused. -/
def refuseOldPlaces (libraries : Libraries) (text : String) : Except ReadError Unit :=
  match libraries.pattern oldPlacePattern with
  | .error reason => .error (.pattern reason)
  | .ok hasOldPlace => if hasOldPlace text then .error .oldPlace else .ok ()

/-- The text of the template in the file with the given name, filled in from the environment. A
failure to fill it in is told by its cause. -/
def fill (libraries : Libraries) (env : Template.Environment) (path : String) (text : String) :
    Except ReadError String :=
  match libraries.template path text with
  | .error failure => .error (.template failure.text)
  | .ok render =>
      (render [("env", env)]).mapError fun failure =>
        .template (failure.cause?.getD failure.text)

/-- The settings in a document from the file with the given name. -/
def interpret (libraries : Libraries) (decode : Toml.Value → Except String α) (path : String)
    (text : String) : Except ReadError α :=
  match libraries.document text with
  | .error reason => .error (.document path reason)
  | .ok value => (decode value).mapError (.mismatch path)

/-- The settings in a configuration text from the file with the given name. -/
def parse (libraries : Libraries) (decode : Toml.Value → Except String α)
    (env : Template.Environment) (path : String) (text : String) : Except ReadError α := do
  refuseOldPlaces libraries text
  let filled ← fill libraries env path text
  interpret libraries decode path filled

/-- The settings in the file with the given name, whose bytes are given if it exists. -/
def read (libraries : Libraries) (decode : Toml.Value → Except String α)
    (env : Template.Environment) (path : String) (bytes : Option ByteArray) :
    Except ReadError α :=
  match bytes with
  | none => .error .noFile
  | some bytes =>
      match String.fromUTF8? bytes with
      | none => .error .noText
      | some text => parse libraries decode env path text

end TilePyramid.Config
