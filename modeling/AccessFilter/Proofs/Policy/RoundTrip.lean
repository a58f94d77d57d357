import AccessFilter.Proofs.Policy.Consistent
import AccessFilter.Proofs.Traversal
import AccessFilter.Proofs.Yaml.Decode

/-!
# Documents written and read again

A document that was read can be written and read again, and the same document results. What is
absent is left out or written as null, which reads as absent; a list is never written as one string,
and the conditions of a rule, which may be any values, are nested no deeper than they were read.

* `Rule.Readable`        the conditions of a rule are nested not too deep and hold no key twice;
* `Rule.ofNode_toValue`, `Policy.ofNode_toValue`   rules and documents read back;
* `Policy.readable_ofNode`   what is read can be read again;
* `Policy.parse_yaml`    the text of a document is parsed to the document;
* `Policy.parse_yaml_of_parse`   so it is for every document that was parsed.
-/

namespace AccessFilter

open Yaml Yaml.Targets

/-! ## rules -/

namespace Rule

/-- A rule whose conditions can be read: they are nested not too deep and hold no key twice. -/
def Readable (r : Rule) : Prop :=
  ∀ fs, r.conditions = some fs → (Value.object fs).Nested valueDepth

variable {targets : Targets}

theorem readOneOrMany_array (ss : List String) :
    readOneOrMany targets (Value.array (ss.map .string)).node = pure ss := by
  have hnested : (Value.array (ss.map .string)).Nested valueDepth := by
    refine .array fun v hv => ?_
    obtain ⟨s, -, rfl⟩ := List.mem_map.mp hv
    exact .scalar rfl
  rw [readOneOrMany, freeValue_node hnested, pure_bind, oneOrMany?, strings?_map_string]

theorem readConditions_object {fs : Conditions} (h : (Value.object fs).Nested valueDepth) :
    readConditions targets (Value.object fs).node = pure (some fs) := by
  have hfields : targets.freeFields (valueDepth - 1) (Value.object fs).node = pure fs :=
    freeFields_node h
  rw [readConditions, optional_object, pure_bind]
  dsimp only
  rw [hfields, pure_bind]

/-- A field that has not been read yet. -/
theorem readPairs_field {seen : List Field} {field : Field} {v : Value} {r r' : Rule}
    {rest : List (String × Value)} (hnew : field ∉ seen)
    (hread : readNode targets r field v.node = pure r') :
    readPairs targets seen r (Value.fieldNodes ((field.key, v) :: rest))
      = readPairs targets (field :: seen) r' (Value.fieldNodes rest) := by
  rw [Value.fieldNodes, readPairs, string_scalar, pure_bind, ofKey?_key]
  dsimp only
  rw [if_neg hnew, hread, pure_bind]

/-- A field that may be left out: the rule is the same either way. The fields read before are
among `done`. -/
theorem readPairs_part (field : Field) {seen done : List Field} {r whole : Rule} (r' : Rule)
    {part rest : List (String × Value)} (hseen : ∀ f ∈ seen, f ∈ done) (hnew : field ∉ done)
    (hpart : (part = [] ∧ r = r') ∨
      ∃ v, part = [(field.key, v)] ∧ readNode targets r field v.node = pure r')
    (hrest : ∀ seen, (∀ f ∈ seen, f ∈ field :: done) →
      readPairs targets seen r' (Value.fieldNodes rest) = pure whole) :
    readPairs targets seen r (Value.fieldNodes (part ++ rest)) = pure whole := by
  rcases hpart with ⟨rfl, rfl⟩ | ⟨v, rfl, hread⟩
  · exact hrest seen fun f hf => List.mem_cons_of_mem field (hseen f hf)
  · rw [List.singleton_append, readPairs_field (fun hmem => hnew (hseen field hmem)) hread]
    exact hrest _ fun f hf => (List.mem_cons.mp hf).elim (fun h => h ▸ List.mem_cons_self)
      fun h => List.mem_cons_of_mem field (hseen f h)

theorem readNode_action (r : Rule) (ss : List String) :
    readNode targets r .action (Value.array (ss.map .string)).node
      = pure { r with actions := ss } := by
  rw [readNode, readOneOrMany_array, pure_bind]

theorem readNode_subject (r : Rule) (ss : List String) :
    readNode targets r .subject (Value.array (ss.map .string)).node
      = pure { r with subjects := ss } := by
  rw [readNode, readOneOrMany_array, pure_bind]

/-- **A rule reads back.** -/
theorem ofNode_toValue {r : Rule} (h : r.Readable) : ofNode targets r.toValue.node = pure r := by
  obtain ⟨actions, subjects, conditions, denies, reason⟩ := r
  rw [ofNode, toValue, pairs_object, pure_bind, List.append_assoc, List.append_assoc,
    List.cons_append, List.cons_append, List.nil_append]
  -- the fields in the order in which they are written; the last three may be absent
  refine (readPairs_field List.not_mem_nil (readNode_action _ _)).trans ?_
  refine (readPairs_field (by decide) (readNode_subject _ _)).trans ?_
  refine readPairs_part .conditions { actions, subjects, conditions } (fun f hf => hf) (by decide)
    ?_ fun seen hseen => ?_
  · cases conditions with
    | none => exact .inl ⟨rfl, rfl⟩
    | some fs =>
      refine .inr ⟨_, rfl, ?_⟩
      rw [readNode, readConditions_object (h fs rfl), pure_bind]
  refine readPairs_part .inverted { actions, subjects, conditions, denies } hseen (by decide)
    ?_ fun seen hseen => ?_
  · cases denies with
    | false => exact .inl ⟨rfl, rfl⟩
    | true =>
      refine .inr ⟨_, rfl, ?_⟩
      rw [readNode, flag_bool, pure_bind]
  cases reason with
  | none => rfl
  | some s =>
    have hnew : Field.reason ∉ seen := fun hmem => absurd (hseen _ hmem) (by decide)
    have hread : readNode targets { actions, subjects, conditions, denies } .reason
        (Value.string s).node = pure { actions, subjects, conditions, denies, reason := some s } := by
      rw [readNode, optionalString_string, pure_bind]
    exact (readPairs_field hnew hread).trans rfl

/-! ### rules that are read -/

theorem readable_empty : ({} : Rule).Readable := nofun

theorem readable_readNode (r : Rule) (h : r.Readable) (field : Field) (n : Node) :
    Yields (readNode targets r field n) Readable := by
  cases field with
  | conditions =>
    refine Yields.bind (Q := fun cs => ∀ fs, cs = some fs → (Value.object fs).Nested valueDepth)
      ?_ fun cs hcs => yields_pure hcs
    refine yields_bind fun n => ?_
    cases n with
    | none => exact yields_pure nofun
    | some n =>
      refine (nested_of_freeFields (valueDepth - 1) n).bind fun fs hfs => yields_pure ?_
      rintro _ ⟨⟩
      exact hfs
  | _ => exact yields_bind fun _ => yields_pure h

theorem readable_readPairs (seen : List Field) (r : Rule) (h : r.Readable)
    (pairs : List (Node × Node)) : Yields (readPairs targets seen r pairs) Readable := by
  induction pairs generalizing seen r with
  | nil => exact yields_pure h
  | cons p pairs ih =>
    rw [readPairs]
    refine yields_bind fun key => ?_
    cases Field.ofKey? key with
    | none => exact yields_bind fun _ => ih seen r h
    | some field =>
      dsimp only
      split
      · exact yields_bind fun _ => (readable_readNode r h field p.2).bind fun r' h' => ih _ r' h'
      · exact (readable_readNode r h field p.2).bind fun r' h' => ih _ r' h'

/-- **A rule that was read can be read again.** -/
theorem readable_ofNode (n : Node) : Yields (ofNode targets n) Readable :=
  yields_bind fun pairs => readable_readPairs [] {} readable_empty pairs

end Rule

/-! ## metadata -/

namespace PolicyMetadata

variable {targets : Targets}

theorem readTags_array (tags : List String) :
    readTags targets (Value.array (tags.map .string)).node = pure (some tags) := by
  rw [readTags, optional_array, pure_bind]
  dsimp only
  rw [items_array, pure_bind, itemNodes_eq, List.map_map]
  have hstring : ∀ s ∈ tags, targets.string ((Value.node ∘ Value.string) s) = pure s :=
    fun s _ => string_scalar _ s
  rw [mapM_written hstring, pure_bind]

theorem optionalString_optionalValue (s : Option String) :
    targets.optionalString (optionalValue s).node = pure s := by
  cases s with
  | none => exact optionalString_null
  | some s => exact optionalString_string s

theorem exists_tags (targets : Targets) (m : PolicyMetadata) :
    ∃ tags, readTags targets tags.node = pure m.tags ∧
      m.toValue = .object [("id", .string m.id), ("name", optionalValue m.name),
        ("description", optionalValue m.description), ("tags", tags),
        ("enabled", .bool m.enabled)] := by
  obtain ⟨id, name, description, tags, enabled⟩ := m
  cases tags with
  | none => exact ⟨.null, rfl, rfl⟩
  | some tags => exact ⟨_, readTags_array tags, rfl⟩

/-- **Metadata reads back**: each field is written, the absent ones as null. -/
theorem ofNode_toValue (m : PolicyMetadata) : ofNode targets m.toValue.node = pure m := by
  obtain ⟨tags, htags, hvalue⟩ := exists_tags targets m
  rw [ofNode, hvalue, pairs_object, pure_bind]
  simp only [fieldNodes_eq, List.map_cons, List.map_nil, List.foldlM_cons, List.foldlM_nil,
    string_scalar, pure_bind, readField]
  rw [optionalString_optionalValue, optionalString_optionalValue, htags, flag_bool]
  rfl

end PolicyMetadata

/-! ## documents -/

namespace Policy

/-- A document whose rules can be read. -/
def Readable (p : Policy) : Prop := ∀ r ∈ p.rules, r.Readable

variable {targets : Targets}

theorem readRules_array {rules : List Rule} (h : ∀ r ∈ rules, r.Readable) :
    readRules targets (Value.array (rules.map Rule.toValue)).node = pure rules := by
  rw [readRules, items_array, pure_bind, itemNodes_eq, List.map_map]
  exact mapM_written fun r hr => Rule.ofNode_toValue (h r hr)

/-- **A document reads back.** -/
theorem ofNode_toValue {p : Policy} (h : p.Readable) :
    ofNode targets p.toValue.node = pure p := by
  rw [ofNode, toValue, pairs_object, pure_bind]
  simp only [fieldNodes_eq, List.map_cons, List.map_nil, List.foldlM_cons, List.foldlM_nil,
    string_scalar, pure_bind, readField]
  rw [PolicyMetadata.ofNode_toValue, readRules_array h]
  rfl

/-! ### documents that are read -/

/-- The rules read so far can be read again. -/
def Draft.Readable (d : Draft) : Prop := ∀ rules, d.rules = some rules → ∀ r ∈ rules, r.Readable

theorem readable_readField (d : Draft) (h : d.Readable) (key : String) (n : Node) :
    Yields (readField targets d key n) Draft.Readable := by
  unfold readField
  split
  · exact yields_bind fun _ => yields_pure h
  · exact yields_bind fun _ => yields_pure h
  · exact yields_bind fun _ => yields_pure h
  · have hrules : Yields (readRules targets n) fun rules => ∀ r ∈ rules, r.Readable :=
      yields_bind fun ns => yields_mapM fun n _ => Rule.readable_ofNode n
    refine Yields.bind (Q := fun read => ∀ rules, read = some rules → ∀ r ∈ rules, Rule.Readable r)
      ?_ fun read hread => yields_pure hread
    rw [once]
    split
    · exact yields_bind fun _ => hrules.bind fun rules hr => yields_pure fun _ e => by
        cases e
        exact hr
    · exact hrules.bind fun rules hr => yields_pure fun _ e => by
        cases e
        exact hr
  · exact yields_throw _

/-- **A document that was read can be read again.** -/
theorem readable_ofNode (n : Node) : Yields (ofNode targets n) Readable := by
  refine yields_bind fun pairs => ?_
  refine Yields.bind (Q := Draft.Readable) ?_ fun d hd => ?_
  · refine yields_foldlM (fun _ => nofun) fun d p hd => ?_
    exact yields_bind fun key => readable_readField d hd key p.2
  · refine yields_bind fun _ => yields_bind fun _ => yields_bind fun _ => yields_pure ?_
    cases hrules : d.rules with
    | none => exact fun r hr => absurd hr List.not_mem_nil
    | some rules => exact hd rules hrules

/-! ### texts -/

theorem decode_of_parse {text : String} {p : Policy} (h : parse text = .ok p) :
    Yaml.decode ofNode text = .ok p := by
  unfold parse at h
  generalize Yaml.decode ofNode text = read at h ⊢
  cases read with
  | error e => cases h
  | ok q =>
    cases hq : q.check with
    | error e =>
      simp only [hq] at h
      cases h
    | ok r =>
      simp only [hq] at h
      cases h
      rw [((q.check_eq_ok_iff _).mp hq).2.2]

/-- **A document with a proper kind, an identifier and readable rules is written so that it is
parsed again.** -/
theorem parse_yaml {p : Policy} (h : p.Readable) (kind : p.kind = policyKind)
    (named : p.metadata.id ≠ "") : parse p.yaml = .ok p := by
  have hdocument : Document.ofText p.yaml = ⟨p.toValue.node, true⟩ := by
    rw [yaml, toValue, Document.ofText_object]
  have hdecode : Yaml.decode ofNode p.yaml = .ok p :=
    decode_eq_ok hdocument fun _ => ofNode_toValue h
  unfold parse
  rw [hdecode]
  dsimp only
  rw [(p.check_eq_ok_iff p).mpr ⟨kind, named, rfl⟩]

/-- **Every document that was parsed from a text is written so that it is parsed again.** -/
theorem parse_yaml_of_parse {text : String} {p : Policy} (h : parse text = .ok p) :
    parse p.yaml = .ok p := by
  obtain ⟨kind, named⟩ := checked_of_parse h
  have hreadable : p.Readable := Yaml.of_decode (fun _ n => readable_ofNode n) (decode_of_parse h)
  exact parse_yaml hreadable kind named

/-- A string that looks like null, two lines, no tags, and values that differ in their kind only. -/
theorem parse_yaml_of_parse_kinds :
    let text := "apiVersion: v1\nkind: Policy\nmetadata:\n  id: 'null'\n" ++
      "  description: |\n    x\n    y\n  tags: []\nrules:\n- action: read\n" ++
      "  subject: ['# s']\n  conditions: \x7bb: ['1.0', 1.0, 1, ~]\x7d\n  reason: ''\n"
    ∃ p, parse text = .ok p ∧ parse p.yaml = .ok p ∧
      p.metadata.id = "null" ∧ p.metadata.name = none ∧
      p.metadata.description = some "x\ny\n" ∧ p.metadata.tags = some [] ∧
      p.rules.map Rule.json = ["\x7b\"action\":[\"read\"],\"subject\":[\"# s\"]," ++
        "\"conditions\":\x7b\"b\":[\"1.0\",1.0,1,null]\x7d,\"reason\":\"\"\x7d"] := by
  intro text
  exact exists_ok_of_any (fun p hp _ => parse_yaml_of_parse hp) (by decide +kernel)

end Policy

end AccessFilter
