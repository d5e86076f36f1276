import Stepwise.Proofs.Yaml.Spelled

/-!
# The nodes of a spelled value

Reading the tokens of a spelled value needs no anchors, tags, aliases or blocks. Each reading takes
tokens from the front and gives a value, so readings are put together like the tokens they take.
-/

namespace Stepwise

open Stepwise.Json (Spelled SpelledItems SpelledMembers meant)

namespace Json

mutual

/-- The node of a spelled value. -/
def Spelled.node : Spelled → Yaml.Node
  | .null => .scalar none "null" true
  | .bool b => .scalar none (if b then "true" else "false") true
  | .num n => .scalar none (String.ofList n.literal) true
  | .str cs => .scalar none (meant cs) false
  | .emptyArr _ => .seq none []
  | .arr items => .seq none items.nodes
  | .emptyObj _ => .map none []
  | .obj members => .map none members.entries

def SpelledItems.nodes : SpelledItems → List Yaml.Node
  | .last _ v _ => [v.node]
  | .next _ v _ rest => v.node :: rest.nodes

def SpelledMembers.entries : SpelledMembers → List (Yaml.Node × Yaml.Node)
  | .last _ name _ _ v _ => [(.scalar none (meant name) false, v.node)]
  | .next _ name _ _ v _ rest => (.scalar none (meant name) false, v.node) :: rest.entries

end

end Json

namespace Yaml

namespace NodeReader

variable {α β : Type} {tokens between rest : List Token}

/-! ## Readings -/

/-- Reading takes some tokens in front of a rest and gives a value; nothing else is learnt. -/
def Yields (m : M α) (tokens rest : List Token) (a : α) : Prop :=
  ∀ r : NodeReader, r.tokens = tokens → ∃ events, m r = some (a, { r with tokens := rest, events })

theorem yields_pure (a : α) : Yields (pure a) tokens tokens a := by
  rintro r rfl
  exact ⟨r.events, rfl⟩

theorem Yields.bind {m : M α} {f : α → M β} {a : α} {b : β} (h : Yields m tokens between a)
    (h' : Yields (f a) between rest b) : Yields (m >>= f) tokens rest b := by
  intro r hr
  obtain ⟨events, hm⟩ := h r hr
  obtain ⟨events', hf⟩ := h' { r with tokens := between, events } rfl
  refine ⟨events', ?_⟩
  change (m r).bind (fun x => f x.1 x.2) = _
  rw [hm, Option.bind_some, hf]

theorem yields_peek : Yields peek tokens tokens tokens.head? := by
  rintro r rfl
  exact ⟨r.events, rfl⟩

theorem yields_skip (t : Token) : Yields skip (t :: tokens) tokens () := by
  intro r hr
  refine ⟨r.events, ?_⟩
  change some ((), ({ r with tokens := r.tokens.drop 1 } : NodeReader)) = _
  rw [hr]
  rfl

theorem yields_count (n : Nat) : Yields (count n) tokens tokens () := by
  rintro r rfl
  exact ⟨r.events + n, rfl⟩

theorem Yields.get_bind {f : NodeReader → M β} {b : β}
    (h : ∀ r : NodeReader, r.tokens = tokens → Yields (f r) tokens rest b) :
    Yields (get >>= f) tokens rest b :=
  fun r hr => h r hr r hr

/-- A token at which a value starts, without an anchor or a tag. -/
def startsValue : Token → Bool
  | .scalar _ _ | .openBracket | .openBrace => true
  | _ => false

theorem yields_properties {t : Token} (ht : startsValue t = true) :
    Yields properties (t :: tokens) (t :: tokens) ⟨none, none⟩ := by
  have hanchor : Yields anchor? (t :: tokens) (t :: tokens) none := by
    refine yields_peek.bind ?_
    rw [List.head?_cons]
    cases t <;> first | exact yields_pure none | cases ht
  have htag : Yields tag? (t :: tokens) (t :: tokens) none := by
    refine yields_peek.bind ?_
    rw [List.head?_cons]
    cases t <;> first | exact yields_pure none | cases ht
  exact hanchor.bind (htag.bind (yields_pure _))

/-- In front of a value nothing is learnt. -/
theorem yields_start {t : Token} (ht : startsValue t = true)
    {f : Properties → Option String → NodeReader → M β} {b : β}
    (h : ∀ r, Yields (f ⟨none, none⟩ none r) (t :: tokens) rest b) :
    Yields (do
      let p ← properties
      let tag ← resolveTag p.tag
      let r ← get
      noteAnchor p.anchor
      count 1
      f p tag r) (t :: tokens) rest b := by
  refine (yields_properties ht).bind ?_
  refine Yields.bind (yields_pure none) (Yields.get_bind fun r _ => ?_)
  exact Yields.bind (yields_pure ()) ((yields_count 1).bind (h r))

theorem yields_keep (place : Nat) (n : Node) : Yields (keep none place n) tokens tokens n :=
  yields_pure n

/-! ## Nodes -/

section Collections

variable {steps : Nat}

theorem node_scalar (steps : Nat) (inBlock bare : Bool) (text : String) (isPlain : Bool) :
    Yields (node (steps + 1) inBlock bare) (.scalar text isPlain :: rest) rest
      (.scalar none text isPlain) := by
  rw [node]
  refine yields_peek.bind (yields_start rfl fun r => yields_peek.bind ?_)
  exact (yields_skip _).bind (Yields.bind (yields_pure _) (yields_keep _ _))

theorem node_seq {items : List Node} (h : Yields (brackets steps true) tokens rest items)
    (inBlock bare : Bool) :
    Yields (node (steps + 1) inBlock bare) (.openBracket :: tokens) rest (.seq none items) := by
  rw [node]
  refine yields_peek.bind (yields_start rfl fun r => yields_peek.bind ?_)
  exact (yields_skip _).bind (h.bind ((yields_count 1).bind
    (Yields.bind (yields_pure _) (yields_keep _ _))))

theorem node_map {entries : List (Node × Node)} (h : Yields (braces steps true) tokens rest entries)
    (inBlock bare : Bool) :
    Yields (node (steps + 1) inBlock bare) (.openBrace :: tokens) rest (.map none entries) := by
  rw [node]
  refine yields_peek.bind (yields_start rfl fun r => yields_peek.bind ?_)
  exact (yields_skip _).bind (h.bind ((yields_count 1).bind
    (Yields.bind (yields_pure _) (yields_keep _ _))))

theorem brackets_close (steps : Nat) (first : Bool) :
    Yields (brackets (steps + 1) first) (.closeBracket :: rest) rest [] := by
  refine yields_peek.bind ?_
  have hends : endsEntry [.closeBracket] (some .closeBracket) = true := rfl
  rw [List.head?_cons, hends, if_pos rfl]
  exact (yields_skip _).bind (yields_pure [])

theorem braces_close (steps : Nat) (first : Bool) :
    Yields (braces (steps + 1) first) (.closeBrace :: rest) rest [] := by
  refine yields_peek.bind ?_
  have hends : endsEntry [.closeBrace] (some .closeBrace) = true := rfl
  rw [List.head?_cons, hends, if_pos rfl]
  exact (yields_skip _).bind (yields_pure [])

/-- The separator that stands in front of an item, if it is not the first. -/
def separators (first : Bool) : List Token := if first then [] else [.comma]

theorem yields_separator (first : Bool) :
    Yields (separator first) (separators first ++ tokens) tokens () := by
  cases first with
  | true => exact yields_pure ()
  | false => exact yields_peek.bind (yields_skip _)

theorem brackets_item {t : Token} (ht : startsValue t = true) {item : Node} {items : List Node}
    (hitem : Yields (node steps false false) (t :: tokens) between item)
    (hitems : Yields (brackets steps false) between rest items) (first : Bool) :
    Yields (brackets (steps + 1) first) (separators first ++ t :: tokens) rest (item :: items) := by
  rw [brackets]
  refine yields_peek.bind ?_
  have hends : endsEntry [.closeBracket] (separators first ++ t :: tokens).head? = false := by
    cases first with
    | true => cases t <;> first | rfl | cases ht
    | false => rfl
  rw [hends, if_neg Bool.false_ne_true]
  refine (yields_separator first).bind (yields_peek.bind ?_)
  rw [List.head?_cons]
  have hrest : Yields (node steps false false >>= fun item =>
      brackets steps false >>= fun items => pure (item :: items)) (t :: tokens) rest
        (item :: items) :=
    hitem.bind (hitems.bind (yields_pure (item :: items)))
  cases t <;> first | exact hrest | cases ht

theorem nodeUnless_node {t : Token} {n : Node} {ends : List Token}
    (hends : endsEntry ends (some t) = false)
    (h : Yields (node steps false false) (t :: tokens) rest n) :
    Yields (nodeUnless (steps + 1) ends false false) (t :: tokens) rest n := by
  rw [nodeUnless]
  refine yields_peek.bind ?_
  rw [List.head?_cons, hends, if_neg Bool.false_ne_true]
  exact h

theorem braces_entry {t : Token} (ht : startsValue t = true) {name : String} {n : Node}
    {entries : List (Node × Node)}
    (hvalue : Yields (node steps false false) (t :: tokens) between n)
    (hentries : Yields (braces (steps + 2) false) between rest entries) (first : Bool) :
    Yields (braces (steps + 3) first)
      (separators first ++ .key :: .scalar name false :: .value :: t :: tokens) rest
      ((.scalar none name false, n) :: entries) := by
  rw [braces]
  refine yields_peek.bind ?_
  have hends : endsEntry [.closeBrace] (separators first ++ .key :: .scalar name false ::
      .value :: t :: tokens).head? = false := by
    cases first <;> rfl
  rw [hends, if_neg Bool.false_ne_true]
  refine (yields_separator first).bind (yields_peek.bind ((yields_skip _).bind ?_))
  refine Yields.bind (nodeUnless_node rfl (node_scalar steps false false name false)) ?_
  have hend : endsEntry [.comma, .closeBrace] (some t) = false := by
    cases t <;> first | rfl | cases ht
  have hbehind : Yields (valueUnless (steps + 2) [.comma, .closeBrace] false)
      (.value :: t :: tokens) between n := by
    rw [valueUnless]
    exact yields_peek.bind ((yields_skip _).bind (nodeUnless_node hend hvalue))
  exact hbehind.bind (hentries.bind (yields_pure _))

end Collections

theorem startsValue_tokens (v : Spelled) : ∃ t tail, v.tokens = t :: tail ∧ startsValue t = true := by
  cases v <;> exact ⟨_, _, rfl, rfl⟩

mutual

/-- The tokens of a spelled value are read as its node, when the steps are as many. -/
theorem node_spelled : ∀ (v : Spelled) (steps : Nat), v.tokens.length ≤ steps →
    ∀ (inBlock bare : Bool) (rest : List Token),
    Yields (node steps inBlock bare) (v.tokens ++ rest) rest v.node
  | .null, steps, hsteps, inBlock, bare, rest => by
      obtain ⟨steps, rfl⟩ := Nat.exists_eq_succ_of_ne_zero (Nat.ne_zero_of_lt hsteps)
      exact node_scalar steps inBlock bare _ _
  | .bool b, steps, hsteps, inBlock, bare, rest => by
      obtain ⟨steps, rfl⟩ := Nat.exists_eq_succ_of_ne_zero (Nat.ne_zero_of_lt hsteps)
      exact node_scalar steps inBlock bare _ _
  | .num n, steps, hsteps, inBlock, bare, rest => by
      obtain ⟨steps, rfl⟩ := Nat.exists_eq_succ_of_ne_zero (Nat.ne_zero_of_lt hsteps)
      exact node_scalar steps inBlock bare _ _
  | .str cs, steps, hsteps, inBlock, bare, rest => by
      obtain ⟨steps, rfl⟩ := Nat.exists_eq_succ_of_ne_zero (Nat.ne_zero_of_lt hsteps)
      exact node_scalar steps inBlock bare _ _
  | .emptyArr gap, steps, hsteps, inBlock, bare, rest => by
      obtain ⟨steps, rfl⟩ := Nat.exists_eq_add_of_le' hsteps
      exact node_seq (brackets_close steps true) inBlock bare
  | .arr items, steps, hsteps, inBlock, bare, rest => by
      simp only [Spelled.tokens, List.length_cons, List.length_append, List.length_nil] at hsteps
      obtain ⟨steps, rfl⟩ := Nat.exists_eq_succ_of_ne_zero (Nat.ne_zero_of_lt hsteps)
      have hitems := brackets_spelled items steps (by omega) true rest
      simp only [Spelled.tokens, List.cons_append, List.append_assoc, List.nil_append]
      exact node_seq hitems inBlock bare
  | .emptyObj gap, steps, hsteps, inBlock, bare, rest => by
      obtain ⟨steps, rfl⟩ := Nat.exists_eq_add_of_le' hsteps
      exact node_map (braces_close steps true) inBlock bare
  | .obj members, steps, hsteps, inBlock, bare, rest => by
      simp only [Spelled.tokens, List.length_cons, List.length_append, List.length_nil] at hsteps
      obtain ⟨steps, rfl⟩ := Nat.exists_eq_succ_of_ne_zero (Nat.ne_zero_of_lt hsteps)
      have hmembers := braces_spelled members steps (by omega) true rest
      simp only [Spelled.tokens, List.cons_append, List.append_assoc, List.nil_append]
      exact node_map hmembers inBlock bare

theorem brackets_spelled : ∀ (items : SpelledItems) (steps : Nat), items.tokens.length < steps →
    ∀ (first : Bool) (rest : List Token),
    Yields (brackets steps first) (separators first ++ (items.tokens ++ .closeBracket :: rest)) rest
      items.nodes
  | .last before v after, steps, hsteps, first, rest => by
      obtain ⟨steps, rfl⟩ := Nat.exists_eq_succ_of_ne_zero (Nat.ne_zero_of_lt hsteps)
      have hitem := node_spelled v steps (Nat.le_of_lt_succ hsteps) false false
        (.closeBracket :: rest)
      obtain ⟨t, tail, htokens, ht⟩ := startsValue_tokens v
      simp only [SpelledItems.tokens, htokens, List.length_cons, List.cons_append] at hsteps hitem ⊢
      obtain ⟨steps, rfl⟩ := Nat.exists_eq_succ_of_ne_zero (Nat.ne_zero_of_lt
        (Nat.lt_of_succ_lt_succ hsteps))
      exact brackets_item ht hitem (brackets_close steps false) first
  | .next before v after items, steps, hsteps, first, rest => by
      obtain ⟨steps, rfl⟩ := Nat.exists_eq_succ_of_ne_zero (Nat.ne_zero_of_lt hsteps)
      simp only [SpelledItems.tokens, List.length_append, List.length_cons] at hsteps
      have hitem := node_spelled v steps (by omega) false false
        (.comma :: (items.tokens ++ .closeBracket :: rest))
      have hitems := brackets_spelled items steps (by omega) false rest
      obtain ⟨t, tail, htokens, ht⟩ := startsValue_tokens v
      simp only [SpelledItems.tokens, htokens, List.cons_append, List.append_assoc] at hitem ⊢
      exact brackets_item ht hitem hitems first

theorem braces_spelled : ∀ (members : SpelledMembers) (steps : Nat),
    members.tokens.length < steps → ∀ (first : Bool) (rest : List Token),
    Yields (braces steps first) (separators first ++ (members.tokens ++ .closeBrace :: rest)) rest
      members.entries
  | .last before name gap before' v after, steps, hsteps, first, rest => by
      simp only [SpelledMembers.tokens, List.length_append, List.length_cons, List.length_nil]
        at hsteps
      obtain ⟨steps, rfl⟩ := Nat.exists_eq_add_of_le' (Nat.le_of_lt
        (Nat.lt_of_le_of_lt (Nat.le_add_right 3 v.tokens.length) hsteps))
      have hvalue := node_spelled v steps (by omega) false false (.closeBrace :: rest)
      obtain ⟨t, tail, htokens, ht⟩ := startsValue_tokens v
      simp only [SpelledMembers.tokens, htokens, List.cons_append, List.nil_append] at hvalue ⊢
      exact braces_entry ht hvalue (braces_close (steps + 1) false) first
  | .next before name gap before' v after members, steps, hsteps, first, rest => by
      simp only [SpelledMembers.tokens, List.length_append, List.length_cons, List.length_nil]
        at hsteps
      obtain ⟨steps, rfl⟩ := Nat.exists_eq_add_of_le' (show 3 ≤ steps by omega)
      have hvalue := node_spelled v steps (by omega) false false
        (.comma :: (members.tokens ++ .closeBrace :: rest))
      have hmembers := braces_spelled members (steps + 2) (by omega) false rest
      obtain ⟨t, tail, htokens, ht⟩ := startsValue_tokens v
      simp only [SpelledMembers.tokens, htokens, List.cons_append, List.nil_append,
        List.append_assoc] at hvalue ⊢
      exact braces_entry ht hvalue hmembers first

end

/-- Without directives a document is a node. -/
theorem yields_document {t : Token} (ht : startsValue t = true) {steps : Nat} {n : Node}
    (h : Yields (node steps true false) (t :: tokens) rest n) :
    Yields (document steps) (t :: tokens) rest (some n) := by
  rw [document]
  refine Yields.get_bind fun r hr => ?_
  have hdirectives : directives (t :: tokens) false [] = some (t :: tokens, []) := by
    cases t <;> first | rfl | cases ht
  have hnode : Yields (if (t :: tokens).length = (t :: tokens).length then (do
      return some (← node steps true false)) else refuse) (t :: tokens) rest (some n) := by
    rw [if_pos rfl]
    exact h.bind (yields_pure _)
  rw [hr]
  dsimp only
  rw [hdirectives]
  cases t <;> first | exact hnode | cases ht

end NodeReader

open NodeReader in
/-- The tokens of an object are a document of their own, without anchors. -/
theorem Document.ofTokens?_spelled (v : Spelled) :
    ∃ events, Document.ofTokens? v.tokens = some ⟨some v.node, [], [], events⟩ := by
  obtain ⟨t, tail, htokens, ht⟩ := startsValue_tokens v
  have hnode := node_spelled v (4 * (t :: tail).length + 4) (by rw [htokens]; omega) true false []
  rw [List.append_nil, htokens] at hnode
  obtain ⟨events, hread⟩ := yields_document ht hnode (.start (t :: tail)) rfl
  refine ⟨events, ?_⟩
  rw [htokens, Document.ofTokens?, hread]
  rfl

end Yaml

end Stepwise
