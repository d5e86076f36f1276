import Stepwise.Pdf.Document
import Stepwise.Pdf.TextString
import Stepwise.Run.Collaborators

/-!
# Forms

A form is a document with an index of its terminal fields. The catalog holds the dictionary of the
form itself or a reference to it. Fields stand in a tree: a field with kids that have names of
their own is a container, any other one is terminal. A terminal field is indexed by the names on
the way to it, joined by points, so two fields of one name share an entry and the later one is
meant.

Filling a field writes its value and takes out its old appearance. Flattening marks every indexed
field as read-only and asks for new appearances; nothing is drawn.
-/

namespace Stepwise.Pdf

/-- Where the dictionary of the form stands. -/
inductive FormSlot where
  | referenced (number : Nat)
  | inCatalog (catalog : Nat)
  deriving DecidableEq, Repr

/-- A document with its form and the index of its terminal fields. -/
structure Form where
  document : Document
  fields : Ordered Nat
  slot : FormSlot

namespace Document

/-- The name of a field for the names above it. -/
def qualified (above : Option String) (own : String) : String :=
  match above with
  | some parent => parent ++ "." ++ own
  | none => own

/-- A field's own part of its name. -/
def ownName? (field : Dictionary) : Option String :=
  (field.bytes? "T").map decodeText

/-- The kids of a field that have names. -/
def namedKids (document : Document) (field : Dictionary) : List Nat :=
  (field.references "Kids").filter fun kid =>
    match document.dictionary? kid with
    | some entries => entries.has "T"
    | none => false

/-- Index the terminal fields under some references, down to a number of levels. References that
lead to no named dictionary are passed over. -/
def collect (document : Document) : Nat → Option String → List Nat → Ordered Nat → Ordered Nat
  | 0, _, _, index => index
  | levels + 1, above, references, index =>
      references.foldl (fun index number =>
        match document.dictionary? number with
        | none => index
        | some field =>
            match ownName? field with
            | none => index
            | some own =>
                match document.namedKids field with
                | [] => index.set (qualified above own) number
                | kids => document.collect levels (some (qualified above own)) kids index) index

/-- How many levels the tree of fields may have. -/
def fieldLevels : Nat := 33

end Document

namespace Form

/-- Where the trailer says the catalog is, and its dictionary. -/
def catalog (document : Document) : Except Fault (Nat × Dictionary) :=
  match document.trailer.find? "Root" with
  | none => .error .missingKey
  | some root =>
      match root.asReference? with
      | none => .error .wrongType
      | some number =>
          match document.dictionaryAt number with
          | .error e => .error e
          | .ok (_, entries) => .ok (number, entries)

/-- Where the catalog says the form is. -/
def slotOf? (number : Nat) (catalog : Dictionary) : Option FormSlot :=
  match catalog.find? "AcroForm" with
  | some (.ref target) => some (.referenced target)
  | some (.dict _) => some (.inCatalog number)
  | _ => none

/-- The dictionary of the form. -/
def dictionary (document : Document) : FormSlot → Except Fault Dictionary
  | .referenced number =>
      match document.dictionaryAt number with
      | .error e => .error e
      | .ok (_, entries) => .ok entries
  | .inCatalog number =>
      match document.dictionaryAt number with
      | .error e => .error e
      | .ok (_, catalog) =>
          match catalog.find? "AcroForm" with
          | none => .error .missingKey
          | some form =>
              match form.asDictionary? with
              | none => .error .wrongType
              | some entries => .ok entries

def malformed (fault : Fault) : FormError :=
  .malformed fault.message

/-- Open the form of a document. -/
def ofDocument (document : Document) : Except FormError Form :=
  match catalog document with
  | .error e => .error (malformed e)
  | .ok (number, entries) =>
      match slotOf? number entries with
      | none => .error (.notAForm "document has no AcroForm dictionary")
      | some slot =>
          match dictionary document slot with
          | .error e => .error (malformed e)
          | .ok form =>
              match form.array? "Fields" with
              | none => .error (.notAForm "AcroForm has no Fields array")
              | some _ =>
                  .ok ⟨document,
                    document.collect Document.fieldLevels none (form.references "Fields") [], slot⟩

/-- The dictionary of an indexed field. -/
def field? (form : Form) (name : String) : Option Dictionary :=
  (form.fields.find? name).bind form.document.dictionary?

/-- The value of a text field. -/
def textValue? (form : Form) (name : String) : Option String :=
  ((form.field? name).bind fun field => field.bytes? "V").map decodeText

/-- The flags of a field by its own entry. -/
def flags (field : Dictionary) : Int :=
  (field.int? "Ff").getD 0

/-- Whether the first flag is set: the user may not change the field. -/
def isReadOnly (form : Form) (name : String) : Bool :=
  match form.field? name with
  | none => false
  | some field => flags field % 2 == 1

/-- Flags with the first one set. -/
def locked (flags : Int) : Int :=
  if flags % 2 == 1 then flags else flags + 1

/-- Whether a field may be filled with text: its type, if it has one of its own, is that of text
fields. -/
def takesText (field : Dictionary) : Bool :=
  match field.name? "FT" with
  | none => true
  | some type => type == "Tx"

/-- A field with a new value and without its old appearance. -/
def filled (value : String) (field : Dictionary) : Dictionary :=
  Dictionary.remove (field.set "V" (encodeText value)) "AP"

/-- Fill a text field. -/
def setTextField (form : Form) (name value : String) : Except FormError Form :=
  match form.fields.find? name with
  | none => .error (.fieldNotFound name)
  | some number =>
      match form.document.dictionaryAt number with
      | .error e => .error (malformed e)
      | .ok (_, field) =>
          if takesText field then
            match form.document.changeDictionary number (filled value) with
            | .error e => .error (malformed e)
            | .ok document => .ok { form with document }
          else .error (.malformed ("field '" ++ name ++ "' is not a text field"))

/-- Lock the fields with the given numbers. -/
def lockAll (document : Document) : List Nat → Except Fault Document
  | [] => .ok document
  | number :: rest =>
      match document.changeDictionary number fun field =>
          field.set "Ff" (.int (locked (flags field))) with
      | .error e => .error e
      | .ok document => lockAll document rest

/-- Ask for new appearances in the dictionary of the form. -/
def askForAppearances (document : Document) : FormSlot → Except Fault Document
  | .referenced number =>
      document.changeDictionary number fun form => form.set "NeedAppearances" (.bool true)
  | .inCatalog number =>
      match dictionary document (.inCatalog number) with
      | .error e => .error e
      | .ok form =>
          document.changeDictionary number fun catalog =>
            catalog.set "AcroForm" (.dict (form.set "NeedAppearances" (.bool true)))

/-- Lock every indexed field and ask for new appearances. -/
def flatten (form : Form) : Except FormError Form :=
  match lockAll form.document form.fields.values with
  | .error e => .error (malformed e)
  | .ok document =>
      match askForAppearances document form.slot with
      | .error e => .error (malformed e)
      | .ok document => .ok { form with document }

end Form

end Stepwise.Pdf
