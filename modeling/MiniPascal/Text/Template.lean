import MiniPascal.Text.Basic

/-! # Filling in messages

A message template holds `%v` or `%s` where an argument goes and `%%` for a per cent sign. Too few
arguments, too many, and a sign at the very end are shown in the message itself.
-/

namespace MiniPascal.Text

/-- What stands for an argument that is missing. -/
def missingArgument (verb : Char) : Text := .ofChars ['%', '!', verb, '(', 'M', 'I', 'S', 'S', 'I', 'N', 'G', ')']

/-- What is said about arguments that are left over. -/
def extraArguments (arguments : List Text) : Text :=
  match arguments with
  | [] => []
  | first :: rest =>
    .join ["%!(EXTRA string=", first, .join (rest.map fun argument => .join [", string=", argument]), ")"]

/-- A template with its arguments filled in, and the arguments left over. -/
def fillFrom : Text → List Text → Text × List Text
  | [], arguments => ([], arguments)
  | .char '%' :: [], arguments => ("%!(NOVERB)", arguments)
  | .char '%' :: .char verb :: rest, arguments =>
    if verb = '%' then
      let (filled, left) := fillFrom rest arguments
      (.char '%' :: filled, left)
    else match arguments with
      | argument :: arguments =>
        let (filled, left) := fillFrom rest arguments
        (argument ++ filled, left)
      | [] =>
        let (filled, left) := fillFrom rest []
        (missingArgument verb ++ filled, left)
  | glyph :: rest, arguments =>
    let (filled, left) := fillFrom rest arguments
    (glyph :: filled, left)

/-- A template with its arguments filled in. Without arguments it is a plain text. -/
def fill (template : Text) (arguments : List Text) : Text :=
  if arguments = [] then template
  else
    let (filled, left) := fillFrom template arguments
    filled ++ extraArguments left

end MiniPascal.Text
