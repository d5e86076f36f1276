import Stepwise.Yaml.Scalar
import Stepwise.Yaml.Token

/-!
# Nodes

The tree of a text: collections, scalars, and aliases for nodes that carry an anchor. A text holds
at most one document.

Each scalar, alias and end of a collection counts as an event. An anchor has a number, the count of
names known before it, and an alias stands for the last node whose anchor has that number.
-/

namespace Stepwise.Yaml

/-- A node of a text. -/
inductive Node where
  | alias (number : Nat)
  | scalar (tag : Option String) (text : String) (isPlain : Bool)
  | seq (tag : Option String) (items : List Node)
  | map (tag : Option String) (entries : List (Node × Node))
  deriving Inhabited

namespace Node

/-- A scalar that is not there. -/
def absent : Node := scalar none "" true

end Node

/-- The tokens that are left, and what has been learnt from those in front. -/
structure NodeReader where
  tokens : List Token
  handles : List (List Char × List Char)
  /-- The numbers of anchors by name, the latest first. -/
  anchors : List (String × Nat)
  /-- The event at which the node of a number starts, the latest first. -/
  starts : List (Nat × Nat)
  /-- The nodes with anchors by the event at which they start. -/
  nodes : List (Nat × Node)
  events : Nat

namespace NodeReader

/-- Reading that may fail. -/
abbrev M := StateT NodeReader Option

def start (tokens : List Token) : NodeReader := ⟨tokens, Tag.usualHandles, [], [], [], 0⟩

/-- The next token; none at the end of the text. -/
def peek : M (Option Token) := do
  return (← get).tokens.head?

def skip : M Unit :=
  modify fun r => { r with tokens := r.tokens.drop 1 }

def count (events : Nat) : M Unit :=
  modify fun r => { r with events := r.events + events }

def refuse {α : Type} : M α := fun _ => none

/-- A scalar that is not there, as an event. -/
def absent : M Node := do
  count 1
  return .absent

/-- How many different names there are. -/
def distinct (anchors : List (String × Nat)) : Nat :=
  ((anchors.map Prod.fst).eraseDups).length

/-- Give an anchor a number; its node starts at the next event. -/
def noteAnchor (name : Option String) : M Unit :=
  match name with
  | none => pure ()
  | some name => modify fun r =>
      let number := distinct r.anchors
      { r with anchors := (name, number) :: r.anchors, starts := (number, r.events) :: r.starts }

/-- Keep a node that carries an anchor. -/
def keep (anchor : Option String) (place : Nat) (node : Node) : M Node := do
  if anchor.isSome then modify fun r => { r with nodes := (place, node) :: r.nodes }
  return node

/-- Anchor and tag in front of a node, in either order. -/
structure Properties where
  anchor : Option String
  tag : Option Tag.Written

def anchor? : M (Option String) := do
  match ← peek with
  | some (.anchor name) => do
      skip
      return some name
  | _ => return none

def tag? : M (Option Tag.Written) := do
  match ← peek with
  | some (.tag tag) => do
      skip
      return some tag
  | _ => return none

def properties : M Properties := do
  match ← anchor? with
  | some name => return ⟨some name, ← tag?⟩
  | none =>
      match ← tag? with
      | none => return ⟨none, none⟩
      | some tag => return ⟨← anchor?, some tag⟩

/-- The tag that is meant. -/
def resolveTag (tag : Option Tag.Written) : M (Option String) :=
  match tag with
  | none => return none
  | some written => do
      match written.resolve? (← get).handles with
      | none => refuse
      | some tag => return some tag

/-- The tag of a scalar that is written; the tag `!` alone is none. -/
def scalarTag (tag : Option String) : Option String :=
  if tag == some "!" then none else tag

/-- Whether a collection in a block has no further entry here. -/
def endsEntry (more : List Token) (token : Option Token) : Bool :=
  more.any fun m => match m, token with
    | .entry, some .entry => true
    | .key, some .key => true
    | .value, some .value => true
    | .blockEnd, some .blockEnd => true
    | .comma, some .comma => true
    | .closeBracket, some .closeBracket => true
    | .closeBrace, some .closeBrace => true
    | _, _ => false

mutual

/-- Read a node. Blocks may start where a block may stand, and a sequence without a block of its
own behind a key. The steps bound the depth of the calls. -/
def node : Nat → Bool → Bool → M Node
  | 0, _, _ => refuse
  | steps + 1, inBlock, bareEntries => do
      match ← peek with
      | some (.alias name) => do
          skip
          count 1
          match (← get).anchors.lookup name with
          | none => refuse
          | some number => return .alias number
      | _ => do
          let p ← properties
          let tag ← resolveTag p.tag
          let place := (← get).events
          noteAnchor p.anchor
          count 1
          let built ← match ← peek with
            | some (.scalar text isPlain) => do
                skip
                pure (Node.scalar (scalarTag tag) text isPlain)
            | some .openBracket => do
                skip
                let items ← brackets steps true
                count 1
                pure (Node.seq tag items)
            | some .openBrace => do
                skip
                let entries ← braces steps true
                count 1
                pure (Node.map tag entries)
            | token =>
                if bareEntries && endsEntry [.entry] token then do
                  let items ← bareItems steps
                  count 1
                  pure (Node.seq tag items)
                else
                  match inBlock, token with
                  | true, some .sequenceBlock => do
                      skip
                      let items ← blockItems steps
                      count 1
                      pure (Node.seq tag items)
                  | true, some .mappingBlock => do
                      skip
                      let entries ← blockEntries steps
                      count 1
                      pure (Node.map tag entries)
                  | _, _ =>
                      if p.anchor.isSome || tag.isSome then pure (Node.scalar tag "" true)
                      else refuse
          keep p.anchor place built

/-- Read a node, unless one of some tokens stands here. -/
def nodeUnless : Nat → List Token → Bool → Bool → M Node
  | 0, _, _, _ => refuse
  | steps + 1, ends, inBlock, bareEntries => do
      if endsEntry ends (← peek) then absent else node steps inBlock bareEntries

/-- Read the items of a sequence in a block, up to its end. -/
def blockItems : Nat → M (List Node)
  | 0 => refuse
  | steps + 1 => do
      match ← peek with
      | some .entry => do
          skip
          let item ← nodeUnless steps [.entry, .blockEnd] true false
          return item :: (← blockItems steps)
      | some .blockEnd => do
          skip
          return []
      | _ => refuse

/-- Read the items of a sequence without a block of its own. -/
def bareItems : Nat → M (List Node)
  | 0 => refuse
  | steps + 1 => do
      match ← peek with
      | some .entry => do
          skip
          let item ← nodeUnless steps [.entry, .key, .value, .blockEnd] true false
          return item :: (← bareItems steps)
      | _ => return []

/-- Read the entries of a mapping in a block, up to its end. -/
def blockEntries : Nat → M (List (Node × Node))
  | 0 => refuse
  | steps + 1 => do
      match ← peek with
      | some .key => do
          skip
          let key ← nodeUnless steps [.key, .value, .blockEnd] true true
          let value ← valueUnless steps [.key, .value, .blockEnd] true
          return (key, value) :: (← blockEntries steps)
      | some .blockEnd => do
          skip
          return []
      | _ => refuse

/-- Read a value behind its colon; without a colon there is none. -/
def valueUnless : Nat → List Token → Bool → M Node
  | 0, _, _ => refuse
  | steps + 1, ends, inBlock => do
      match ← peek with
      | some .value => do
          skip
          nodeUnless steps ends inBlock inBlock
      | _ => absent

/-- Go over the comma in front of an entry that is not the first. -/
def separator : Bool → M Unit
  | true => pure ()
  | false => do
      match ← peek with
      | some .comma => skip
      | _ => refuse

/-- Read the items of a sequence in brackets. A key makes a mapping of one entry. -/
def brackets : Nat → Bool → M (List Node)
  | 0, _ => refuse
  | steps + 1, first => do
      if endsEntry [.closeBracket] (← peek) then
        skip
        return []
      else
        separator first
        match ← peek with
        | some .closeBracket => do
            skip
            return []
        | some .key => do
            skip
            count 1
            let key ← if endsEntry [.value, .comma, .closeBracket] (← peek) then do
                skip
                absent
              else node steps false false
            let value ← valueUnless steps [.comma, .closeBracket] false
            count 1
            return Node.map none [(key, value)] :: (← brackets steps false)
        | _ => do
            let item ← node steps false false
            return item :: (← brackets steps false)

/-- Read the entries of a mapping in braces. -/
def braces : Nat → Bool → M (List (Node × Node))
  | 0, _ => refuse
  | steps + 1, first => do
      if endsEntry [.closeBrace] (← peek) then
        skip
        return []
      else
        separator first
        match ← peek with
        | some .closeBrace => do
            skip
            return []
        | some .key => do
            skip
            let key ← nodeUnless steps [.value, .comma, .closeBrace] false false
            let value ← valueUnless steps [.comma, .closeBrace] false
            return (key, value) :: (← braces steps false)
        | _ => do
            let key ← node steps false false
            let value ← absent
            return (key, value) :: (← braces steps false)

end

/-- Read the directives in front of a document; each may stand only once. -/
def directives : List Token → Bool → List (List Char × List Char) →
    Option (List Token × List (List Char × List Char))
  | .version major minor :: rest, seen, declared =>
      if seen || major != 1 || !(minor == 1 || minor == 2) then none
      else directives rest true declared
  | .handle h start :: rest, seen, declared =>
      if (declared.lookup h).isSome then none
      else directives rest seen ((h, start) :: declared)
  | tokens, _, declared => some (tokens, declared)

/-- Whether the content of a document ends here at once. -/
def endsContent : Option Token → Bool
  | none => true
  | some .documentStart => true
  | some .documentEnd => true
  | some (.version _ _) => true
  | some (.handle _ _) => true
  | some _ => false

/-- Whether nothing but ends of documents is left. -/
def isOver (tokens : List Token) : Bool :=
  tokens.all fun t => match t with
    | .documentEnd => true
    | _ => false

/-- Read the only document, if there is one. -/
def document (steps : Nat) : M (Option Node) := do
  let r ← get
  match r.tokens with
  | [] => return none
  | _ =>
      match directives r.tokens false [] with
      | none => refuse
      | some (.documentStart :: rest, declared) => do
          set { r with tokens := rest, handles := declared ++ r.handles }
          if endsContent rest.head? then return some (← absent)
          else return some (← node steps true false)
      | some (tokens, _) =>
          if tokens.length = r.tokens.length then return some (← node steps true false)
          else refuse

end NodeReader

/-- The document of a text with its anchors. -/
structure Document where
  root : Option Node
  starts : List (Nat × Nat)
  nodes : List (Nat × Node)
  events : Nat

/-- The document of tokens. -/
def Document.ofTokens? (tokens : List Token) : Option Document :=
  match NodeReader.document (4 * tokens.length + 4) (.start tokens) with
  | none => none
  | some (root, r) =>
      if NodeReader.isOver r.tokens then some ⟨root, r.starts, r.nodes, r.events⟩ else none

namespace Document

/-- The node that an alias stands for. -/
def target? (d : Document) (number : Nat) : Option Node :=
  (d.starts.lookup number).bind fun place => d.nodes.lookup place

/-- Building values, with a count of the aliases that were followed. -/
abbrev M := StateT Nat Option

/-- Follow an alias. There may be at most a hundred for each event. -/
def follow (d : Document) : Node → M Node
  | .alias number => fun count =>
      if d.events * 100 < count + 1 then none
      else (d.target? number).map fun node => (node, count + 1)
  | node => return node

/-- Collections may stand in one another to this depth. -/
def maxDepth : Nat := 128

/-- The entries of a mapping; equal keys are an error. -/
def distinctKeys : List (Value × Value) → Bool
  | [] => true
  | (k, _) :: rest => !(rest.any fun e => k.same e.1) && distinctKeys rest

/-- The value of a node in which collections may stand to a depth. -/
def value (d : Document) : Nat → Node → M Value
  | depth, node => do
      match ← d.follow node with
      | .alias _ => fun _ => none
      | .scalar tag text isPlain => fun count => (scalar? tag text isPlain).map fun v => (v, count)
      | .seq tag items =>
          match depth with
          | 0 => fun _ => none
          | depth + 1 => do
              let values ← items.mapM (d.value depth)
              return withTag tag (.seq values)
      | .map tag entries =>
          match depth with
          | 0 => fun _ => none
          | depth + 1 => do
              let values ← entries.mapM fun e => do
                let k ← d.value depth e.1
                let v ← d.value depth e.2
                return (k, v)
              if distinctKeys values then return withTag tag (.map values) else fun _ => none

end Document

/-- The value of a text; an empty text is null. -/
def Value.ofText? (text : String) : Option Value := do
  let tokens ← Token.ofText? text
  let document ← Document.ofTokens? tokens
  match document.root with
  | none => some .null
  | some root => (document.value Document.maxDepth root 0).map Prod.fst

end Stepwise.Yaml
