import PlainSteps.Config.Basic

/-! # Addresses in a step

The web addresses a step names, without the punctuation that ends their sentence.
-/

namespace PlainSteps.Facts

open Pattern

/-- Characters that end an address: white space, quotes and angle brackets. -/
def endsAddress (c : Char) : Bool :=
  Text.isBlank c || c == '\x60' || c == '\x27' || c == '"' || c == '<' || c == '>'

/-- A web address. -/
def address : Pattern :=
  seq [letters "http", maybe (letter 's'), letters "://", oneOrMore fun c => !endsAddress c]

/-- Punctuation that belongs to the sentence and not to the address before it. -/
def isTrailing (c : Char) : Bool :=
  c == '.' || c == ',' || c == ';' || c == ':' || c == ')' || c == ']'

/-- All addresses of a text, in order. -/
def urls (text : Text) : List Text :=
  (address.findAll text).map fun f => Text.trimRightOf isTrailing f.whole

/-- The first address of a text, or else the start of the application. -/
def url (config : Config) (text : Text) : Text := (urls text).headD config.baseUrl

end PlainSteps.Facts
