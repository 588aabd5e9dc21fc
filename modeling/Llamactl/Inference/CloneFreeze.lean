import Llamactl.Collections.OrderedMap
import Llamactl.Js.Json
import Mathlib.Data.List.Pairwise

open collections js List

namespace llamactl.inference.envelope

/-! `cloneFreezeBounded`: the copy of a request body that the envelope keeps. -/

inductive Key where
  | index (i : Nat)
  | name (text : List Nat)
  deriving DecidableEq

inductive Leaf where
  | null
  | bool (value : Bool)
  | num (value : Numeral)
  | str (value : List Nat)

/-- What a property holds. -/
inductive Slot where
  | leaf (value : Leaf)
  | ref (address : Nat)

/-- An array or an object by its own properties, in their order. -/
structure Node where
  isArray : Bool
  fields : List (Key × Slot)
  frozen : Bool

def PROTO : Key := .name (units "__proto__")

section

def ENVELOPE_BODY_MAX_DEPTH : Nat := 128

structure InferenceEnvelopeError where
  code : String
  message : String
  deriving DecidableEq

structure CloneFrame where
  src : Nat
  dst : Nat
  depth : Nat

structure CloneState where
  heap : List Node
  seen : List (Nat × Nat)
  /-- the top comes first -/
  stack : List CloneFrame

def cloneContainerFor (heap : List Node) (src : Nat) : Node where
  isArray := heap[src]?.any Node.isArray
  fields := []
  frozen := false

/-- `slot[key] = value`, which gives the object another prototype where the key is `__proto__`. -/
def Node.assign (node : Node) (key : Key) (slot : Slot) : Node :=
  if key = PROTO then node else { node with fields := setEntry key slot node.fields }

def assignSlot (heap : List Node) (dst : Nat) (key : Key) (slot : Slot) : List Node :=
  heap.modify dst fun node => node.assign key slot

def assignClonedChild (dst : Nat) (key : Key) (child : Slot) (depth : Nat) (st : CloneState) : CloneState :=
  match child with
  | .leaf value => { st with heap := assignSlot st.heap dst key (.leaf value) }
  | .ref src =>
    match st.seen.lookup src with
    | some existing => { st with heap := assignSlot st.heap dst key (.ref existing) }
    | none =>
      let clone := st.heap.length
      { heap := assignSlot (st.heap ++ [cloneContainerFor st.heap src]) dst key (.ref clone)
        seen := st.seen ++ [(src, clone)]
        stack := ⟨src, clone, depth + 1⟩ :: st.stack }

/-- One turn of the loop for a frame that is not too deep. -/
def cloneFrame (frame : CloneFrame) (st : CloneState) : CloneState :=
  ((st.heap[frame.src]?.map Node.fields).getD []).foldl
    (fun st (key, child) => assignClonedChild frame.dst key child frame.depth st) st

/-- The loop, with a bound on its turns. -/
def cloneLoop : Nat → CloneState → Option (Except InferenceEnvelopeError CloneState)
  | 0, _ => none
  | fuel + 1, st =>
    match st.stack with
    | [] => some (.ok st)
    | frame :: stack =>
      if ENVELOPE_BODY_MAX_DEPTH < frame.depth then
        some (.error ⟨"native-body-too-deep", s!"nativeBody exceeds the maximum depth of {ENVELOPE_BODY_MAX_DEPTH}"⟩)
      else cloneLoop fuel (cloneFrame frame { st with stack })

def freeze (heap : List Node) (address : Nat) : List Node := heap.modify address fun node => { node with frozen := true }

/-- The heap after the call and the address of the copy. -/
def cloneFreezeBounded (heap : List Node) (value : Nat) : Option (Except InferenceEnvelopeError (List Node × Nat)) :=
  let root := heap.length
  let start : CloneState := ⟨heap ++ [cloneContainerFor heap value], [(value, root)], [⟨value, root, 0⟩]⟩
  (cloneLoop (heap.length + 1) start).map fun outcome => outcome.map fun st =>
    ((st.seen.map Prod.snd).foldl freeze st.heap, root)

end

section

/-- A JSON value each of whose containers stands at an address. -/
inductive Value where
  | leaf (value : Leaf)
  | node (address : Nat) (isArray : Bool) (fields : List (Key × Value))

def Value.slot : Value → Slot
  | .leaf value => .leaf value
  | .node address _ _ => .ref address

def Value.isContainer : Value → Bool
  | .leaf _ => false
  | .node _ _ _ => true

def slots (fields : List (Key × Value)) : List (Key × Slot) := fields.map fun field => (field.1, field.2.slot)

mutual

def Laid (heap : List Node) : Value → Prop
  | .leaf _ => True
  | .node address isArray fields => heap[address]? = some ⟨isArray, slots fields, false⟩ ∧ LaidFields heap fields

def LaidFields (heap : List Node) : List (Key × Value) → Prop
  | [] => True
  | (_, child) :: fields => Laid heap child ∧ LaidFields heap fields

end

mutual

def Value.addresses : Value → List Nat
  | .leaf _ => []
  | .node address _ fields => address :: fieldAddresses fields

def fieldAddresses : List (Key × Value) → List Nat
  | [] => []
  | (_, child) :: fields => child.addresses ++ fieldAddresses fields

end

mutual

/-- How many containers are nested in the value. -/
def Value.depth : Value → Nat
  | .leaf _ => 0
  | .node _ _ fields => fieldDepth fields

def fieldDepth : List (Key × Value) → Nat
  | [] => 0
  | (_, child) :: fields => max (if child.isContainer then child.depth + 1 else 0) (fieldDepth fields)

end

mutual

/-- Arrays have their indices for keys, objects names that are all different. -/
def Keyed : Value → Prop
  | .leaf _ => True
  | .node _ true fields => fields.map Prod.fst = (List.range fields.length).map .index ∧ KeyedFields fields
  | .node _ false fields => (fields.map Prod.fst).Nodup ∧ (∀ field ∈ fields, ∃ text, field.1 = .name text) ∧
      KeyedFields fields

def KeyedFields : List (Key × Value) → Prop
  | [] => True
  | (_, child) :: fields => Keyed child ∧ KeyedFields fields

end

mutual

/-- No object in the value has the key `__proto__`. -/
def NoProto : Value → Prop
  | .leaf _ => True
  | .node _ _ fields => NoProtoFields fields

def NoProtoFields : List (Key × Value) → Prop
  | [] => True
  | (key, child) :: fields => key ≠ PROTO ∧ NoProto child ∧ NoProtoFields fields

end

/-- A value as `JSON.parse` leaves it in the heap: a container of its own for each one in the text, none of them frozen. -/
structure ParsedBody where
  heap : List Node
  address : Nat
  isArray : Bool
  fields : List (Key × Value)
  laid : Laid heap (.node address isArray fields)
  distinct : (Value.node address isArray fields).addresses.Nodup
  keyed : Keyed (.node address isArray fields)

def ParsedBody.value (body : ParsedBody) : Value := .node body.address body.isArray body.fields

mutual

/-- The slot holds a copy of the value with the same own keys, deeply frozen and at addresses from `base` on. -/
inductive FrozenCopy (heap : List Node) (base : Nat) : Value → Slot → Prop where
  | leaf (value : Leaf) : FrozenCopy heap base (.leaf value) (.leaf value)
  | node {source address : Nat} {isArray : Bool} {fields : List (Key × Value)} {copies : List (Key × Slot)}
      (hfresh : base ≤ address) (hnode : heap[address]? = some ⟨isArray, copies, true⟩)
      (hfields : FrozenCopyFields heap base fields copies) : FrozenCopy heap base (.node source isArray fields) (.ref address)

inductive FrozenCopyFields (heap : List Node) (base : Nat) : List (Key × Value) → List (Key × Slot) → Prop where
  | nil : FrozenCopyFields heap base [] []
  | cons {key : Key} {child : Value} {slot : Slot} {fields : List (Key × Value)} {copies : List (Key × Slot)}
      (hchild : FrozenCopy heap base child slot) (hfields : FrozenCopyFields heap base fields copies) :
      FrozenCopyFields heap base ((key, child) :: fields) ((key, slot) :: copies)

end

/-- What the copy is for: it throws for a body that is too deep only, else it makes a frozen copy that shares nothing with
    the body, and leaves the body as it was. -/
structure ClonesBounded (body : ParsedBody) : Prop where
  throws : (∃ error, cloneFreezeBounded body.heap body.address = some (.error error)) ↔
    ENVELOPE_BODY_MAX_DEPTH < body.value.depth
  copies : body.value.depth ≤ ENVELOPE_BODY_MAX_DEPTH → ∃ heap root,
    cloneFreezeBounded body.heap body.address = some (.ok (heap, root)) ∧
      FrozenCopy heap body.heap.length body.value (.ref root) ∧
      ∀ address < body.heap.length, heap[address]? = body.heap[address]?

end

section

/-- The containers among the values of an object or an array. -/
def containers : List (Key × Value) → List Value
  | [] => []
  | (_, .leaf _) :: fields => containers fields
  | (_, .node address isArray inner) :: fields => .node address isArray inner :: containers fields

theorem fieldAddresses_eq (fields : List (Key × Value)) :
    fieldAddresses fields = (containers fields).flatMap Value.addresses := by
  induction fields with
  | nil => rfl
  | cons field fields ih =>
    obtain ⟨key, child⟩ := field
    cases child with
    | leaf value => exact ih
    | node address isArray inner => rw [fieldAddresses, ih, containers, flatMap_cons]

variable {child : Value}

theorem containers_are {fields : List (Key × Value)} (hmem : child ∈ containers fields) :
    ∃ key, (key, child) ∈ fields ∧ ∃ address isArray inner, child = .node address isArray inner := by
  induction fields with
  | nil => cases hmem
  | cons field fields ih =>
    obtain ⟨key, first⟩ := field
    cases first with
    | leaf value =>
      obtain ⟨other, hother, hchild⟩ := ih hmem
      exact ⟨other, mem_cons_of_mem _ hother, hchild⟩
    | node address isArray inner =>
      obtain rfl | hmem := mem_cons.mp hmem
      · exact ⟨key, mem_cons_self, address, isArray, inner, rfl⟩
      · obtain ⟨other, hother, hchild⟩ := ih hmem
        exact ⟨other, mem_cons_of_mem _ hother, hchild⟩

theorem laid_of_mem {heap : List Node} {fields : List (Key × Value)} {key : Key}
    (hlaid : LaidFields heap fields) (hmem : (key, child) ∈ fields) : Laid heap child := by
  induction fields with
  | nil => cases hmem
  | cons field fields ih =>
    rw [LaidFields] at hlaid
    obtain rfl | hmem := mem_cons.mp hmem
    · exact hlaid.1
    · exact ih hlaid.2 hmem

theorem keyed_of_mem {fields : List (Key × Value)} {key : Key} (hkeyed : KeyedFields fields)
    (hmem : (key, child) ∈ fields) : Keyed child := by
  induction fields with
  | nil => cases hmem
  | cons field fields ih =>
    rw [KeyedFields] at hkeyed
    obtain rfl | hmem := mem_cons.mp hmem
    · exact hkeyed.1
    · exact ih hkeyed.2 hmem

theorem Keyed.fields {address : Nat} {isArray : Bool} {fields : List (Key × Value)}
    (hkeyed : Keyed (.node address isArray fields)) : (fields.map Prod.fst).Nodup ∧ KeyedFields fields := by
  cases isArray with
  | true =>
    rw [Keyed] at hkeyed
    refine ⟨?_, hkeyed.2⟩
    rw [hkeyed.1]
    exact nodup_range.map fun i j h => Key.index.inj h
  | false =>
    rw [Keyed] at hkeyed
    exact ⟨hkeyed.1, hkeyed.2.2⟩

theorem fieldDepth_leaf (key : Key) (value : Leaf) (fields : List (Key × Value)) :
    fieldDepth ((key, .leaf value) :: fields) = fieldDepth fields := Nat.zero_max _

theorem fieldDepth_node (key : Key) (address : Nat) (isArray : Bool) (inner fields : List (Key × Value)) :
    fieldDepth ((key, .node address isArray inner) :: fields) =
      max ((Value.node address isArray inner).depth + 1) (fieldDepth fields) := rfl

theorem depth_lt {fields : List (Key × Value)} (hmem : child ∈ containers fields) :
    child.depth + 1 ≤ fieldDepth fields := by
  induction fields with
  | nil => cases hmem
  | cons field fields ih =>
    obtain ⟨key, first⟩ := field
    cases first with
    | leaf value =>
      rw [fieldDepth_leaf]
      exact ih hmem
    | node address isArray inner =>
      rw [fieldDepth_node]
      obtain rfl | hmem := mem_cons.mp hmem
      · exact Nat.le_max_left _ _
      · exact (ih hmem).trans (Nat.le_max_right _ _)

theorem exists_deepest {fields : List (Key × Value)} (hdeep : 0 < fieldDepth fields) :
    ∃ child ∈ containers fields, child.depth + 1 = fieldDepth fields := by
  induction fields with
  | nil =>
    rw [fieldDepth] at hdeep
    omega
  | cons field fields ih =>
    obtain ⟨key, first⟩ := field
    cases first with
    | leaf value =>
      rw [fieldDepth_leaf] at hdeep ⊢
      exact ih hdeep
    | node address isArray inner =>
      rw [fieldDepth_node] at hdeep ⊢
      by_cases hle : fieldDepth fields ≤ (Value.node address isArray inner).depth + 1
      · exact ⟨.node address isArray inner, mem_cons_self, (Nat.max_eq_left hle).symm⟩
      obtain ⟨child, hmem, hdepth⟩ := ih (by omega)
      refine ⟨child, mem_cons_of_mem _ hmem, ?_⟩
      rw [Nat.max_eq_right (by omega), hdepth]

end

section

def Value.isArray : Value → Bool
  | .leaf _ => false
  | .node _ isArray _ => isArray

/-- The copies of the fields that a turn of the loop assigns, the frames of the containers among them still to come. -/
inductive Opened (frames : List (CloneFrame × Value)) : List (Key × Value) → List (Key × Slot) → Prop where
  | nil : Opened frames [] []
  | proto {child : Value} {fields : List (Key × Value)} {copies : List (Key × Slot)} (hrest : Opened frames fields copies) :
      Opened frames ((PROTO, child) :: fields) copies
  | leaf {key : Key} {value : Leaf} {fields : List (Key × Value)} {copies : List (Key × Slot)} (hkey : key ≠ PROTO)
      (hrest : Opened frames fields copies) : Opened frames ((key, .leaf value) :: fields) ((key, .leaf value) :: copies)
  | frame {key : Key} {child : Value} {frame : CloneFrame} {fields : List (Key × Value)} {copies : List (Key × Slot)}
      (hkey : key ≠ PROTO) (hframe : (frame, child) ∈ frames) (hrest : Opened frames fields copies) :
      Opened frames ((key, child) :: fields) ((key, .ref frame.dst) :: copies)

variable {frames : List (CloneFrame × Value)} {copies : List (Key × Slot)}

theorem Opened.mono {others : List (CloneFrame × Value)} {fields : List (Key × Value)} (hsub : ∀ p ∈ frames, p ∈ others) (hopened : Opened frames fields copies) :
    Opened others fields copies := by
  induction hopened with
  | nil => exact .nil
  | proto _ ih => exact .proto ih
  | leaf hkey _ ih => exact .leaf hkey ih
  | frame hkey hframe _ ih => exact .frame hkey (hsub _ hframe) ih

/-- What a run over the fields of a container does to a state: `frames` are pushed, newest first. -/
structure Opening (dst depth : Nat) (fields : List (Key × Value)) (copies : List (Key × Slot))
    (frames : List (CloneFrame × Value)) (st st' : CloneState) : Prop where
  stack : st'.stack = frames.map Prod.fst ++ st.stack
  grown : st.heap.length ≤ st'.heap.length
  kept : ∀ address < st.heap.length, address ≠ dst → st'.heap[address]? = st.heap[address]?
  node : ∀ node, st.heap[dst]? = some node → st'.heap[dst]? = some { node with fields := node.fields ++ copies }
  values : frames.map Prod.snd = (containers fields).reverse
  fresh : ∀ p ∈ frames, p.1.depth = depth + 1 ∧ p.2.slot = .ref p.1.src ∧ st.heap.length ≤ p.1.dst ∧
    st'.heap[p.1.dst]? = some ⟨p.2.isArray, [], false⟩
  dsts : (frames.map fun p => p.1.dst).Nodup
  seen : st'.seen = st.seen ++ (frames.map fun p => (p.1.src, p.1.dst)).reverse
  opened : Opened frames fields copies

theorem Opening.done (dst depth : Nat) (st : CloneState) : Opening dst depth [] [] [] st st where
  stack := rfl
  grown := Nat.le_refl _
  kept := fun _ _ _ => rfl
  node := fun node hnode => by rw [hnode, append_nil]
  values := rfl
  fresh := by simp
  dsts := nodup_nil
  seen := by simp
  opened := .nil

variable {heap : List Node} {address : Nat} {node : Node}

theorem lt_of_getElem? (hnode : heap[address]? = some node) :
    address < heap.length := (List.getElem?_eq_some_iff.mp hnode).1

theorem containers_append (fields others : List (Key × Value)) :
    containers (fields ++ others) = containers fields ++ containers others := by
  induction fields with
  | nil => rfl
  | cons field fields ih =>
    obtain ⟨key, child⟩ := field
    cases child with
    | leaf value => exact ih
    | node address isArray inner => rw [cons_append, containers, ih, containers, cons_append]

theorem Opened.append {fields others : List (Key × Value)}
    {more : List (Key × Slot)} (hfirst : Opened frames fields copies) (hsecond : Opened frames others more) :
    Opened frames (fields ++ others) (copies ++ more) := by
  induction hfirst with
  | nil => exact hsecond
  | proto _ ih => exact .proto ih
  | leaf hkey _ ih => exact .leaf hkey ih
  | frame hkey hframe _ ih => exact .frame hkey hframe ih

variable {dst depth : Nat} {st : CloneState}

theorem Opening.append {fields others : List (Key × Value)} {more : List (Key × Slot)}
    {later : List (CloneFrame × Value)} {mid st' : CloneState} (hdst : dst < st.heap.length)
    (hfirst : Opening dst depth fields copies frames st mid) (hsecond : Opening dst depth others more later mid st') :
    Opening dst depth (fields ++ others) (copies ++ more) (later ++ frames) st st' where
  stack := by rw [hsecond.stack, hfirst.stack, map_append, append_assoc]
  grown := hfirst.grown.trans hsecond.grown
  kept := by
    intro address hlow hne
    have hgrown := hfirst.grown
    rw [hsecond.kept address (by omega) hne, hfirst.kept address hlow hne]
  node := by
    intro node hnode
    rw [hsecond.node _ (hfirst.node node hnode), append_assoc]
  values := by rw [map_append, hsecond.values, hfirst.values, containers_append, reverse_append]
  fresh := by
    intro p hp
    obtain hp | hp := mem_append.mp hp
    · obtain ⟨hdepth, hslot, hlow, hempty⟩ := hsecond.fresh p hp
      exact ⟨hdepth, hslot, hfirst.grown.trans hlow, hempty⟩
    obtain ⟨hdepth, hslot, hlow, hempty⟩ := hfirst.fresh p hp
    refine ⟨hdepth, hslot, hlow, ?_⟩
    rw [hsecond.kept _ (lt_of_getElem? hempty) (by omega), hempty]
  dsts := by
    rw [map_append, nodup_append]
    refine ⟨hsecond.dsts, hfirst.dsts, ?_⟩
    intro a ha b hb
    obtain ⟨p, hp, rfl⟩ := mem_map.mp ha
    obtain ⟨q, hq, rfl⟩ := mem_map.mp hb
    have hlow := (hsecond.fresh p hp).2.2.1
    have hhigh := lt_of_getElem? (hfirst.fresh q hq).2.2.2
    omega
  seen := by rw [hsecond.seen, hfirst.seen, map_append, reverse_append, append_assoc]
  opened := (hfirst.opened.mono fun _ hp => mem_append_right _ hp).append
    (hsecond.opened.mono fun _ hp => mem_append_left _ hp)

variable {key : Key} {slot : Slot}

theorem Node.assign_fresh (hkey : key ≠ PROTO) (hfresh : key ∉ node.fields.map Prod.fst) :
    node.assign key slot = { node with fields := node.fields ++ [(key, slot)] } := by
  rw [Node.assign, if_neg hkey, setEntry_of_not_mem _ hfresh]

theorem Node.assign_proto (node : Node) (slot : Slot) : node.assign PROTO slot = node := by
  rw [Node.assign, if_pos rfl]

theorem assignSlot_other (hne : address ≠ dst) :
    (assignSlot heap dst key slot)[address]? = heap[address]? := by
  rw [assignSlot, getElem?_modify_ne _ _ (Ne.symm hne)]

theorem assignSlot_self
    (hnode : heap[dst]? = some node) : (assignSlot heap dst key slot)[dst]? = some (node.assign key slot) := by
  rw [assignSlot, getElem?_modify_eq, hnode]
  rfl

theorem length_assignSlot (heap : List Node) (dst : Nat) (key : Key) (slot : Slot) :
    (assignSlot heap dst key slot).length = heap.length := length_modify ..

/-- What an assignment adds to the fields of the copy. -/
def assigned (key : Key) (slot : Slot) : List (Key × Slot) := if key = PROTO then [] else [(key, slot)]

theorem Node.assign_eq (slot : Slot) (hfresh : key ∉ node.fields.map Prod.fst) :
    node.assign key slot = { node with fields := node.fields ++ assigned key slot } := by
  unfold assigned
  by_cases hkey : key = PROTO
  · rw [hkey, Node.assign_proto, if_pos rfl, append_nil]
  · rw [Node.assign_fresh hkey hfresh, if_neg hkey]

theorem opening_leaf {value : Leaf} (hnode : st.heap[dst]? = some node) (hfresh : key ∉ node.fields.map Prod.fst) :
    Opening dst depth [(key, .leaf value)] (assigned key (.leaf value)) [] st
      (assignClonedChild dst key (.leaf value) depth st) where
  stack := rfl
  grown := (length_assignSlot ..).ge
  kept := fun _ _ hne => assignSlot_other hne
  node := by
    intro other hother
    cases hnode.symm.trans hother
    rw [← Node.assign_eq _ hfresh]
    exact assignSlot_self hnode
  values := rfl
  fresh := by simp
  dsts := nodup_nil
  seen := (append_nil _).symm
  opened := by
    unfold assigned
    by_cases hkey : key = PROTO
    · rw [hkey, if_pos rfl]
      exact .proto .nil
    · rw [if_neg hkey]
      exact .leaf hkey .nil

theorem opening_node {heap : List Node} {dst depth address : Nat} {isArray : Bool} {inner : List (Key × Value)} {key : Key}
    {st : CloneState} {node : Node} (hnode : st.heap[dst]? = some node) (hfresh : key ∉ node.fields.map Prod.fst)
    (hlaid : Laid heap (.node address isArray inner)) (hsources : ∀ a < heap.length, st.heap[a]? = heap[a]?)
    (hunseen : address ∉ st.seen.map Prod.fst) :
    ∃ frame, Opening dst depth [(key, .node address isArray inner)] (assigned key (.ref frame.dst))
      [(frame, .node address isArray inner)] st (assignClonedChild dst key (.ref address) depth st) := by
  have hdst := lt_of_getElem? hnode
  have hsource : st.heap[address]? = some ⟨isArray, slots inner, false⟩ := by
    rw [hsources _ (lt_of_getElem? hlaid.1), hlaid.1]
  have hclone : cloneContainerFor st.heap address = ⟨isArray, [], false⟩ := by
    rw [cloneContainerFor, hsource]
    rfl
  have hlookup : st.seen.lookup address = none := by
    rw [lookup_eq_none_iff]
    intro p hp
    rw [bne_iff_ne]
    rintro rfl
    exact hunseen (mem_map_of_mem hp)
  have hresult : assignClonedChild dst key (.ref address) depth st =
      { heap := assignSlot (st.heap ++ [⟨isArray, [], false⟩]) dst key (.ref st.heap.length)
        seen := st.seen ++ [(address, st.heap.length)]
        stack := ⟨address, st.heap.length, depth + 1⟩ :: st.stack } := by
    simp only [assignClonedChild, hlookup, hclone]
  rw [hresult]
  refine ⟨⟨address, st.heap.length, depth + 1⟩, ?_⟩
  refine ⟨rfl, ?_, ?_, ?_, rfl, ?_, nodup_singleton _, rfl, ?_⟩
  · rw [length_assignSlot, length_append]
    omega
  · intro other hother hne
    rw [assignSlot_other hne, getElem?_append_left hother]
  · intro other hother
    cases hnode.symm.trans hother
    rw [← Node.assign_eq _ hfresh]
    apply assignSlot_self
    rw [getElem?_append_left hdst, hnode]
  · intro p hp
    rw [mem_singleton] at hp
    subst hp
    refine ⟨rfl, rfl, Nat.le_refl _, ?_⟩
    rw [assignSlot_other (Nat.ne_of_gt hdst), getElem?_concat_length]
    rfl
  unfold assigned
  by_cases hkey : key = PROTO
  · rw [hkey, if_pos rfl]
    exact .proto .nil
  · rw [if_neg hkey]
    exact .frame hkey mem_cons_self .nil

theorem assigned_keys (key : Key) (slot : Slot) : ∀ k ∈ (assigned key slot).map Prod.fst, k = key := by
  unfold assigned
  split
  · simp
  · simp

theorem opening_fields {heap : List Node} {dst depth : Nat} {fields : List (Key × Value)} {st : CloneState} {node : Node}
    (hnode : st.heap[dst]? = some node) (hkeys : (fields.map Prod.fst).Nodup)
    (hfresh : ∀ key ∈ fields.map Prod.fst, key ∉ node.fields.map Prod.fst) (hlaid : LaidFields heap fields)
    (hlow : heap.length ≤ dst) (hsources : ∀ a < heap.length, st.heap[a]? = heap[a]?)
    (hdistinct : (fieldAddresses fields).Nodup) (hunseen : ∀ a ∈ fieldAddresses fields, a ∉ st.seen.map Prod.fst) :
    ∃ copies frames, Opening dst depth fields copies frames st
      ((slots fields).foldl (fun st (key, child) => assignClonedChild dst key child depth st) st) := by
  induction fields generalizing st node with
  | nil => exact ⟨[], [], .done dst depth st⟩
  | cons field fields ih =>
    obtain ⟨key, child⟩ := field
    rw [LaidFields] at hlaid
    rw [fieldAddresses, nodup_append] at hdistinct
    rw [fieldAddresses] at hunseen
    simp only [map_cons, nodup_cons] at hkeys
    simp only [map_cons, forall_mem_cons] at hfresh
    have hfirst : ∃ copies frames, Opening dst depth [(key, child)] copies frames st
        (assignClonedChild dst key child.slot depth st) ∧ (∀ k ∈ copies.map Prod.fst, k = key) ∧
        ∀ p ∈ frames, p.1.src ∈ child.addresses := by
      cases child with
      | leaf value => exact ⟨_, _, opening_leaf hnode hfresh.1, assigned_keys _ _, by simp⟩
      | node address isArray inner =>
        obtain ⟨frame, hopening⟩ := @opening_node _ _ depth _ _ _ _ _ _ hnode hfresh.1 hlaid.1 hsources
          (hunseen address (by simp [Value.addresses]))
        refine ⟨_, _, hopening, assigned_keys _ _, ?_⟩
        intro p hp
        have hslot := (hopening.fresh p hp).2.1
        rw [mem_singleton] at hp
        subst hp
        have haddress : address = frame.src := Slot.ref.inj hslot
        rw [Value.addresses, haddress]
        exact mem_cons_self
    obtain ⟨copies, frames, hopening, hcopies, hsrc⟩ := hfirst
    have hdst := lt_of_getElem? hnode
    have hlater := hopening.node node hnode
    have hmore : ∃ more later, Opening dst depth fields more later (assignClonedChild dst key child.slot depth st)
        ((slots fields).foldl (fun st (key, child) => assignClonedChild dst key child depth st)
          (assignClonedChild dst key child.slot depth st)) := by
      apply ih hlater hkeys.2 _ hlaid.2 _ hdistinct.2.1
      · intro a ha
        rw [hopening.seen, map_append, mem_append, not_or]
        refine ⟨hunseen a (mem_append_right _ ha), ?_⟩
        rw [map_reverse, mem_reverse, map_map]
        intro hmem
        obtain ⟨p, hp, rfl⟩ := mem_map.mp hmem
        exact hdistinct.2.2 _ (hsrc p hp) _ ha rfl
      · intro k hk hmem
        rw [map_append, mem_append] at hmem
        obtain hmem | hmem := hmem
        · exact hfresh.2 k hk hmem
        · rw [hcopies k hmem] at hk
          exact hkeys.1 hk
      · intro a ha
        rw [hopening.kept a (by omega) (by omega), hsources a ha]
    obtain ⟨more, later, hsecond⟩ := hmore
    exact ⟨_, _, hopening.append hdst hsecond⟩

end

section

mutual

/-- The slot holds a copy that is finished as far as no frame is pending for it. -/
inductive Built (heap : List Node) (clones : List Nat) (pending : List (CloneFrame × Value)) : Value → Slot → Prop where
  | leaf (value : Leaf) : Built heap clones pending (.leaf value) (.leaf value)
  | pending {frame : CloneFrame} {value : Value} (hframe : (frame, value) ∈ pending) :
      Built heap clones pending value (.ref frame.dst)
  | node {source address : Nat} {isArray : Bool} {fields : List (Key × Value)} {copies : List (Key × Slot)}
      (hdone : ∀ p ∈ pending, p.1.dst ≠ address) (hclone : address ∈ clones)
      (hnode : heap[address]? = some ⟨isArray, copies, false⟩) (hfields : BuiltFields heap clones pending fields copies) :
      Built heap clones pending (.node source isArray fields) (.ref address)

inductive BuiltFields (heap : List Node) (clones : List Nat) (pending : List (CloneFrame × Value)) :
    List (Key × Value) → List (Key × Slot) → Prop where
  | nil : BuiltFields heap clones pending [] []
  | proto {child : Value} {fields : List (Key × Value)} {copies : List (Key × Slot)}
      (hrest : BuiltFields heap clones pending fields copies) : BuiltFields heap clones pending ((PROTO, child) :: fields) copies
  | field {key : Key} {child : Value} {slot : Slot} {fields : List (Key × Value)} {copies : List (Key × Slot)}
      (hkey : key ≠ PROTO) (hchild : Built heap clones pending child slot)
      (hrest : BuiltFields heap clones pending fields copies) :
      BuiltFields heap clones pending ((key, child) :: fields) ((key, slot) :: copies)

end

theorem Opened.built {heap : List Node} {clones : List Nat} {frames pending : List (CloneFrame × Value)}
    {fields : List (Key × Value)} {copies : List (Key × Slot)} (hopened : Opened frames fields copies)
    (hsub : ∀ p ∈ frames, p ∈ pending) : BuiltFields heap clones pending fields copies := by
  induction hopened with
  | nil => exact .nil
  | proto _ ih => exact .proto ih
  | leaf hkey _ ih => exact .field hkey (.leaf _) ih
  | frame hkey hframe _ ih => exact .field hkey (.pending (hsub _ hframe)) ih

/-- Nothing that is finished changes, and each pending frame is worked off or still there. -/
structure Finishes (heap heap' : List Node) (clones clones' : List Nat) (pending pending' : List (CloneFrame × Value)) :
    Prop where
  nodes : ∀ address node, (∀ p ∈ pending, p.1.dst ≠ address) → address ∈ clones → heap[address]? = some node →
    heap'[address]? = some node ∧ address ∈ clones' ∧ ∀ p ∈ pending', p.1.dst ≠ address
  frames : ∀ p ∈ pending, Built heap' clones' pending' p.2 (.ref p.1.dst)

mutual

theorem Built.mono {heap heap' : List Node} {clones clones' : List Nat} {pending pending' : List (CloneFrame × Value)}
    (hfinishes : Finishes heap heap' clones clones' pending pending') : (value : Value) → (slot : Slot) →
    Built heap clones pending value slot → Built heap' clones' pending' value slot
  | .leaf value, slot, hbuilt => by
    cases hbuilt with
    | leaf => exact .leaf value
    | pending hframe => exact hfinishes.frames _ hframe
  | .node source isArray fields, slot, hbuilt => by
    cases hbuilt with
    | pending hframe => exact hfinishes.frames _ hframe
    | node hdone hclone hnode hfields =>
      obtain ⟨hnode', hclone', hdone'⟩ := hfinishes.nodes _ _ hdone hclone hnode
      exact .node hdone' hclone' hnode' (BuiltFields.mono hfinishes fields _ hfields)

theorem BuiltFields.mono {heap heap' : List Node} {clones clones' : List Nat}
    {pending pending' : List (CloneFrame × Value)} (hfinishes : Finishes heap heap' clones clones' pending pending') :
    (fields : List (Key × Value)) → (copies : List (Key × Slot)) →
    BuiltFields heap clones pending fields copies → BuiltFields heap' clones' pending' fields copies
  | [], copies, hbuilt => by
    cases hbuilt
    exact .nil
  | (key, child) :: fields, copies, hbuilt => by
    cases hbuilt with
    | proto hrest => exact .proto (BuiltFields.mono hfinishes fields _ hrest)
    | field hkey hchild hrest =>
      exact .field hkey (Built.mono hfinishes child _ hchild) (BuiltFields.mono hfinishes fields _ hrest)

end

end

section

/-- What holds between the turns of the loop; `pending` is the stack with the value of each frame. -/
structure CloneInv (heap : List Node) (value : Value) (root : Nat) (st : CloneState) (pending : List (CloneFrame × Value)) :
    Prop where
  stack : st.stack = pending.map Prod.fst
  sources : ∀ a < heap.length, st.heap[a]? = heap[a]?
  frames : ∀ p ∈ pending, p.2.slot = .ref p.1.src ∧ Laid heap p.2 ∧ Keyed p.2 ∧ heap.length ≤ p.1.dst ∧
    st.heap[p.1.dst]? = some ⟨p.2.isArray, [], false⟩ ∧ p.1.dst ∈ st.seen.map Prod.snd
  dsts : (pending.map fun p => p.1.dst).Nodup
  distinct : (pending.flatMap fun p => p.2.addresses).Nodup
  unseen : ∀ p ∈ pending, ∀ a ∈ p.2.addresses.tail, a ∉ st.seen.map Prod.fst
  clones : ∀ c ∈ st.seen.map Prod.snd, heap.length ≤ c ∧ c < st.heap.length
  built : Built st.heap (st.seen.map Prod.snd) pending value (.ref root)
  shallow : ∀ p ∈ pending, p.1.depth + p.2.depth ≤ value.depth
  deepest : ENVELOPE_BODY_MAX_DEPTH < value.depth → ∃ p ∈ pending, p.1.depth + p.2.depth = value.depth

variable {value : Value}

theorem addresses_eq {frame : CloneFrame} (hslot : value.slot = .ref frame.src) :
    ∃ isArray fields, value = .node frame.src isArray fields := by
  cases value with
  | leaf value => cases hslot
  | node address isArray fields =>
    cases hslot
    exact ⟨isArray, fields, rfl⟩

variable {copies : List (Key × Slot)} {frames : List (CloneFrame × Value)} {st st' : CloneState}

theorem Opening.mem_containers {dst depth : Nat} {fields : List (Key × Value)} (hopening : Opening dst depth fields copies frames st st')
    {child : Value} : child ∈ containers fields ↔ ∃ frame, (frame, child) ∈ frames := by
  rw [← mem_reverse, ← hopening.values, mem_map]
  constructor
  · rintro ⟨p, hp, rfl⟩
    exact ⟨p.1, hp⟩
  · rintro ⟨frame, hframe⟩
    exact ⟨(frame, child), hframe, rfl⟩

theorem Opening.addresses_perm {dst depth : Nat} {fields : List (Key × Value)} (hopening : Opening dst depth fields copies frames st st') :
    (frames.flatMap fun p => p.2.addresses).Perm (fieldAddresses fields) := by
  have hvalues : (frames.flatMap fun p => p.2.addresses) = (frames.map Prod.snd).flatMap Value.addresses := by
    rw [flatMap_map]
  rw [hvalues, hopening.values, fieldAddresses_eq]
  exact (reverse_perm _).flatMap_right _

/-- No container that a turn opens stands inside another. -/
theorem src_not_inner (hslots : ∀ p ∈ frames, p.2.slot = .ref p.1.src)
    (hdistinct : (frames.flatMap fun p => p.2.addresses).Nodup) {p q : CloneFrame × Value} (hp : p ∈ frames)
    (hq : q ∈ frames) : q.1.src ∉ p.2.addresses.tail := by
  have hhead : q.1.src ∈ q.2.addresses := by
    obtain ⟨isArray, fields, heq⟩ := addresses_eq (hslots q hq)
    rw [heq, Value.addresses]
    exact mem_cons_self
  rw [nodup_flatMap] at hdistinct
  by_cases hsame : q = p
  · subst hsame
    have hnodup := hdistinct.1 q hq
    obtain ⟨isArray, fields, heq⟩ := addresses_eq (hslots q hq)
    rw [heq, Value.addresses] at hnodup ⊢
    exact (nodup_cons.mp hnodup).1
  intro htail
  have hsymm : Std.Symm (Function.onFun List.Disjoint fun p : CloneFrame × Value => p.2.addresses) :=
    ⟨fun _ _ hdisjoint _ hb ha => hdisjoint ha hb⟩
  have hdisjoint := hdistinct.2.forall hq hp hsame
  exact hdisjoint hhead (mem_of_mem_tail htail)

/-- One turn of the loop: the frame on top is worked off and those of its containers take its place. -/
theorem CloneInv.step {heap : List Node} {root : Nat} {frame : CloneFrame}
    {isArray : Bool} {fields : List (Key × Value)} {pending : List (CloneFrame × Value)}
    (hinv : CloneInv heap value root st ((frame, .node frame.src isArray fields) :: pending))
    (hshallow : frame.depth ≤ ENVELOPE_BODY_MAX_DEPTH)
    (hopening : Opening frame.dst frame.depth fields copies frames { st with stack := pending.map Prod.fst } st') :
    CloneInv heap value root st' (frames ++ pending) := by
  have htop : Laid heap (.node frame.src isArray fields) ∧ Keyed (.node frame.src isArray fields) ∧
      heap.length ≤ frame.dst ∧ st.heap[frame.dst]? = some ⟨isArray, [], false⟩ ∧
      frame.dst ∈ st.seen.map Prod.snd := (hinv.frames _ mem_cons_self).2
  obtain ⟨hlaid, hkeyed, hlow, hempty, hclone⟩ := htop
  have hdst := lt_of_getElem? hempty
  have hgrown : st.heap.length ≤ st'.heap.length := hopening.grown
  have hkept : ∀ a < st.heap.length, a ≠ frame.dst → st'.heap[a]? = st.heap[a]? := hopening.kept
  have hseen : st'.seen = st.seen ++ (frames.map fun p => (p.1.src, p.1.dst)).reverse := hopening.seen
  have hfresh : ∀ p ∈ frames, p.1.depth = frame.depth + 1 ∧ p.2.slot = .ref p.1.src ∧ st.heap.length ≤ p.1.dst ∧
      st'.heap[p.1.dst]? = some ⟨p.2.isArray, [], false⟩ := hopening.fresh
  have hdistinct := hinv.distinct
  rw [flatMap_cons, Value.addresses, cons_append, nodup_cons, nodup_append] at hdistinct
  obtain ⟨-, hinner, houter, hapart⟩ := hdistinct
  have hdsts := hinv.dsts
  rw [map_cons, nodup_cons] at hdsts
  have hothers : ∀ p ∈ pending, p.1.dst ≠ frame.dst := by
    intro p hp heq
    apply hdsts.1
    rw [← heq]
    exact mem_map_of_mem hp
  have hold : ∀ p ∈ pending, p.1.dst < st.heap.length := fun p hp =>
    lt_of_getElem? (hinv.frames p (mem_cons_of_mem _ hp)).2.2.2.2.1
  have hclones : ∀ c, c ∈ st'.seen.map Prod.snd ↔ c ∈ st.seen.map Prod.snd ∨ ∃ p ∈ frames, p.1.dst = c := by
    intro c
    simp [hseen]
  have hkeys : ∀ a, a ∈ st'.seen.map Prod.fst ↔ a ∈ st.seen.map Prod.fst ∨ ∃ p ∈ frames, p.1.src = a := by
    intro a
    simp [hseen]
  have hperm := hopening.addresses_perm
  refine ⟨?_, ?_, ?_, ?_, ?_, ?_, ?_, ?_, ?_, ?_⟩
  · rw [hopening.stack, map_append]
  · intro a ha
    rw [hkept a (by omega) (by omega), hinv.sources a ha]
  · intro p hp
    obtain hp | hp := mem_append.mp hp
    · obtain ⟨-, hslot, hdstLow, hnode⟩ := hfresh p hp
      obtain ⟨key, hmem, -⟩ := containers_are (hopening.mem_containers.mpr ⟨p.1, hp⟩)
      exact ⟨hslot, laid_of_mem hlaid.2 hmem, keyed_of_mem hkeyed.fields.2 hmem, by omega, hnode,
        (hclones _).mpr (.inr ⟨p, hp, rfl⟩)⟩
    obtain ⟨hslot, hlaidP, hkeyedP, hlowP, hnode, hcloneP⟩ := hinv.frames p (mem_cons_of_mem _ hp)
    refine ⟨hslot, hlaidP, hkeyedP, hlowP, ?_, (hclones _).mpr (.inl hcloneP)⟩
    rw [hkept _ (hold p hp) (hothers p hp), hnode]
  · rw [map_append, nodup_append]
    refine ⟨hopening.dsts, hdsts.2, ?_⟩
    intro a ha b hb
    obtain ⟨p, hp, rfl⟩ := mem_map.mp ha
    obtain ⟨q, hq, rfl⟩ := mem_map.mp hb
    have hnew := (hfresh p hp).2.2.1
    have hlast := hold q hq
    omega
  · rw [flatMap_append, nodup_append]
    refine ⟨hperm.nodup_iff.mpr hinner, houter, ?_⟩
    intro a ha b hb
    exact hapart a (hperm.mem_iff.mp ha) b hb
  · intro p hp a ha hmem
    have hsrcs : ∀ q ∈ frames, q.1.src ∈ fieldAddresses fields := by
      intro q hq
      apply hperm.mem_iff.mp
      obtain ⟨isArray', fields', heq⟩ := addresses_eq (hfresh q hq).2.1
      exact mem_flatMap.mpr ⟨q, hq, by rw [heq, Value.addresses]; exact mem_cons_self⟩
    obtain hmem | ⟨q, hq, rfl⟩ := (hkeys a).mp hmem
    · obtain hp | hp := mem_append.mp hp
      · have hin : a ∈ fieldAddresses fields :=
          hperm.mem_iff.mp (mem_flatMap.mpr ⟨p, hp, mem_of_mem_tail ha⟩)
        exact hinv.unseen _ mem_cons_self a hin hmem
      · exact hinv.unseen p (mem_cons_of_mem _ hp) a ha hmem
    obtain hp | hp := mem_append.mp hp
    · exact src_not_inner (fun p hp => (hfresh p hp).2.1) (hperm.nodup_iff.mpr hinner) hp hq ha
    · exact hapart _ (hsrcs q hq) _ (mem_flatMap.mpr ⟨p, hp, mem_of_mem_tail ha⟩) rfl
  · intro c hc
    obtain hc | ⟨p, hp, rfl⟩ := (hclones c).mp hc
    · have hbounds := hinv.clones c hc
      omega
    have hnew := hfresh p hp
    have hlast := lt_of_getElem? hnew.2.2.2
    omega
  · apply Built.mono _ value (.ref root) hinv.built
    refine ⟨?_, ?_⟩
    · intro address node hdone hmem hnode
      have hlast := lt_of_getElem? hnode
      have hne := hdone _ mem_cons_self
      refine ⟨by rw [hkept address hlast (Ne.symm hne), hnode], (hclones _).mpr (.inl hmem), ?_⟩
      intro p hp
      obtain hp | hp := mem_append.mp hp
      · have hnew := (hfresh p hp).2.2.1
        omega
      · exact hdone p (mem_cons_of_mem _ hp)
    intro p hp
    obtain rfl | hp := mem_cons.mp hp
    · apply Built.node _ ((hclones _).mpr (.inl hclone)) (hopening.node _ hempty)
      · exact hopening.opened.built fun p hp => mem_append_left _ hp
      intro p hp
      obtain hp | hp := mem_append.mp hp
      · have hnew := (hfresh p hp).2.2.1
        omega
      · exact hothers p hp
    · exact .pending (mem_append_right _ hp)
  · intro p hp
    obtain hp | hp := mem_append.mp hp
    · have hdepth := (hfresh p hp).1
      have hlt := depth_lt (hopening.mem_containers.mpr ⟨p.1, hp⟩)
      have hle : frame.depth + fieldDepth fields ≤ value.depth := hinv.shallow _ mem_cons_self
      omega
    · exact hinv.shallow p (mem_cons_of_mem _ hp)
  intro hdeep
  obtain ⟨p, hp, hdepth⟩ := hinv.deepest hdeep
  obtain rfl | hp := mem_cons.mp hp
  · have hsum : frame.depth + fieldDepth fields = value.depth := hdepth
    obtain ⟨child, hchild, hdeepest⟩ := @exists_deepest fields (by omega)
    obtain ⟨next, hnext⟩ := hopening.mem_containers.mp hchild
    have hnextDepth : next.depth = frame.depth + 1 := (hfresh _ hnext).1
    exact ⟨(next, child), mem_append_left _ hnext, by simp only; omega⟩
  · exact ⟨p, mem_append_right _ hp, hdepth⟩

theorem CloneInv.run {heap : List Node} {root fuel : Nat}
    {pending : List (CloneFrame × Value)} (hinv : CloneInv heap value root st pending)
    (hfuel : (pending.flatMap fun p => p.2.addresses).length < fuel) :
    (value.depth ≤ ENVELOPE_BODY_MAX_DEPTH → ∃ st', cloneLoop fuel st = some (.ok st') ∧
      CloneInv heap value root st' []) ∧
    (ENVELOPE_BODY_MAX_DEPTH < value.depth → ∃ error, cloneLoop fuel st = some (.error error)) := by
  induction fuel generalizing st pending with
  | zero => omega
  | succ fuel ih =>
    cases pending with
    | nil =>
      have hstack : st.stack = [] := hinv.stack
      rw [cloneLoop, hstack]
      refine ⟨fun _ => ⟨st, rfl, hinv⟩, fun hdeep => ?_⟩
      obtain ⟨p, hp, -⟩ := hinv.deepest hdeep
      cases hp
    | cons p pending =>
      obtain ⟨frame, top⟩ := p
      have hstack : st.stack = frame :: pending.map Prod.fst := hinv.stack
      have hshallow : frame.depth + top.depth ≤ value.depth := hinv.shallow _ mem_cons_self
      rw [cloneLoop, hstack]
      simp only
      by_cases hdeep : ENVELOPE_BODY_MAX_DEPTH < frame.depth
      · rw [if_pos hdeep]
        exact ⟨fun hle => by omega, fun _ => ⟨_, rfl⟩⟩
      rw [if_neg hdeep]
      have htop : top.slot = .ref frame.src ∧ Laid heap top ∧ Keyed top ∧ heap.length ≤ frame.dst ∧
          st.heap[frame.dst]? = some ⟨top.isArray, [], false⟩ ∧ frame.dst ∈ st.seen.map Prod.snd :=
        hinv.frames _ mem_cons_self
      obtain ⟨hslot, hlaid, hkeyed, hlow, hempty, -⟩ := htop
      obtain ⟨isArray, fields, rfl⟩ := addresses_eq hslot
      have hsource : st.heap[frame.src]? = some ⟨isArray, slots fields, false⟩ := by
        rw [hinv.sources _ (lt_of_getElem? hlaid.1), hlaid.1]
      have hdistinct := hinv.distinct
      rw [flatMap_cons, Value.addresses, cons_append, nodup_cons, nodup_append] at hdistinct
      obtain ⟨copies, frames, hopening⟩ := @opening_fields heap frame.dst frame.depth fields
        { st with stack := pending.map Prod.fst } _ hempty hkeyed.fields.1 (by simp) hlaid.2 hlow hinv.sources
        hdistinct.2.1 (hinv.unseen _ mem_cons_self)
      have hturn : cloneFrame frame { st with stack := pending.map Prod.fst } = (slots fields).foldl
          (fun st (key, child) => assignClonedChild frame.dst key child frame.depth st)
          { st with stack := pending.map Prod.fst } := by
        rw [cloneFrame]
        simp only [hsource]
        rfl
      rw [← hturn] at hopening
      apply ih (hinv.step (Nat.le_of_not_lt hdeep) hopening)
      have hperm := hopening.addresses_perm.length_eq
      rw [flatMap_cons, Value.addresses, length_append, length_cons] at hfuel
      rw [flatMap_append, length_append, hperm]
      omega

end

section

theorem getElem?_freeze (clones : List Nat) (heap : List Node) (a : Nat) : (clones.foldl freeze heap)[a]? =
    heap[a]?.map fun node => if a ∈ clones then { node with frozen := true } else node := by
  induction clones generalizing heap with
  | nil => simp
  | cons c clones ih =>
    rw [foldl_cons, ih]
    by_cases hac : c = a
    · subst hac
      rw [freeze, getElem?_modify_eq]
      cases heap[c]? with
      | none => rfl
      | some node => simp
    · rw [freeze, getElem?_modify_ne _ _ hac]
      simp [Ne.symm hac]

mutual

theorem frozenCopy_of_built {heap heap' : List Node} {clones : List Nat} {base : Nat} (hlow : ∀ c ∈ clones, base ≤ c)
    (hfrozen : ∀ a ∈ clones, ∀ node, heap[a]? = some node → heap'[a]? = some { node with frozen := true }) :
    (value : Value) → (slot : Slot) → NoProto value → Built heap clones [] value slot → FrozenCopy heap' base value slot
  | .leaf value, slot, _, hbuilt => by
    cases hbuilt with
    | leaf => exact .leaf value
    | pending hframe => cases hframe
  | .node source isArray fields, slot, hproto, hbuilt => by
    cases hbuilt with
    | pending hframe => cases hframe
    | node _ hclone hnode hfields =>
      exact .node (hlow _ hclone) (hfrozen _ hclone _ hnode)
        (frozenCopyFields_of_built hlow hfrozen fields _ hproto hfields)

theorem frozenCopyFields_of_built {heap heap' : List Node} {clones : List Nat} {base : Nat}
    (hlow : ∀ c ∈ clones, base ≤ c)
    (hfrozen : ∀ a ∈ clones, ∀ node, heap[a]? = some node → heap'[a]? = some { node with frozen := true }) :
    (fields : List (Key × Value)) → (copies : List (Key × Slot)) → NoProtoFields fields →
    BuiltFields heap clones [] fields copies → FrozenCopyFields heap' base fields copies
  | [], copies, _, hbuilt => by
    cases hbuilt
    exact .nil
  | (key, child) :: fields, copies, hproto, hbuilt => by
    cases hbuilt with
    | proto => exact absurd rfl hproto.1
    | field hkey hchild hrest =>
      exact .cons (frozenCopy_of_built hlow hfrozen child _ hproto.2.1 hchild)
        (frozenCopyFields_of_built hlow hfrozen fields _ hproto.2.2 hrest)

end

theorem BuiltFields.length_le {heap : List Node} {clones : List Nat} {pending : List (CloneFrame × Value)}
    {fields : List (Key × Value)} {copies : List (Key × Slot)} (hbuilt : BuiltFields heap clones pending fields copies) :
    copies.length ≤ fields.length := by
  induction fields generalizing copies with
  | nil =>
    cases hbuilt
    exact Nat.le_refl _
  | cons field fields ih =>
    cases hbuilt with
    | proto hrest => exact Nat.le_succ_of_le (ih hrest)
    | field _ _ hrest => exact Nat.succ_le_succ (ih hrest)

theorem FrozenCopyFields.length_eq {heap : List Node} {base : Nat} {fields : List (Key × Value)}
    {copies : List (Key × Slot)} (hcopy : FrozenCopyFields heap base fields copies) : copies.length = fields.length := by
  induction fields generalizing copies with
  | nil =>
    cases hcopy
    rfl
  | cons field fields ih =>
    cases hcopy with
    | cons _ hrest => rw [length_cons, length_cons, ih hrest]

mutual

theorem noProto_of_built {heap heap' : List Node} {clones : List Nat} {base : Nat}
    (hfrozen : ∀ a ∈ clones, ∀ node, heap[a]? = some node → heap'[a]? = some { node with frozen := true }) :
    (value : Value) → (slot : Slot) → Built heap clones [] value slot → FrozenCopy heap' base value slot → NoProto value
  | .leaf _, _, _, _ => trivial
  | .node source isArray fields, slot, hbuilt, hcopy => by
    cases hbuilt with
    | pending hframe => cases hframe
    | node _ hclone hnode hfields =>
      cases hcopy with
      | node _ hnode' hfields' =>
        have hsame := Option.some.inj ((hfrozen _ hclone _ hnode).symm.trans hnode')
        cases hsame
        exact noProtoFields_of_built hfrozen fields _ hfields hfields'

theorem noProtoFields_of_built {heap heap' : List Node} {clones : List Nat} {base : Nat}
    (hfrozen : ∀ a ∈ clones, ∀ node, heap[a]? = some node → heap'[a]? = some { node with frozen := true }) :
    (fields : List (Key × Value)) → (copies : List (Key × Slot)) → BuiltFields heap clones [] fields copies →
    FrozenCopyFields heap' base fields copies → NoProtoFields fields
  | [], _, _, _ => trivial
  | (key, child) :: fields, copies, hbuilt, hcopy => by
    cases hbuilt with
    | proto hrest =>
      have hle := hrest.length_le
      have hlength := hcopy.length_eq
      rw [length_cons] at hlength
      omega
    | field hkey hchild hrest =>
      cases hcopy with
      | cons hchild' hrest' =>
        exact ⟨hkey, noProto_of_built hfrozen child _ hchild hchild', noProtoFields_of_built hfrozen fields _ hrest hrest'⟩

end

theorem ParsedBody.start (body : ParsedBody) : CloneInv body.heap body.value body.heap.length
    ⟨body.heap ++ [cloneContainerFor body.heap body.address], [(body.address, body.heap.length)],
      [⟨body.address, body.heap.length, 0⟩]⟩ [(⟨body.address, body.heap.length, 0⟩, body.value)] := by
  have hclone : cloneContainerFor body.heap body.address = ⟨body.isArray, [], false⟩ := by
    rw [cloneContainerFor, body.laid.1]
    rfl
  have hdistinct := body.distinct
  refine ⟨rfl, ?_, ?_, nodup_singleton _, ?_, ?_, ?_, .pending mem_cons_self, ?_, ?_⟩
  · intro a ha
    exact getElem?_append_left ha
  · intro p hp
    rw [mem_singleton] at hp
    subst hp
    refine ⟨rfl, body.laid, body.keyed, Nat.le_refl _, ?_, mem_cons_self⟩
    rw [hclone, getElem?_concat_length]
    rfl
  · rw [flatMap_singleton]
    exact hdistinct
  · intro p hp a ha hmem
    rw [mem_singleton] at hp
    subst hp
    rw [Value.addresses, nodup_cons] at hdistinct
    rw [map_singleton, mem_singleton] at hmem
    rw [hmem] at ha
    exact hdistinct.1 ha
  · intro c hc
    rw [map_singleton, mem_singleton] at hc
    rw [hc, length_append]
    exact ⟨Nat.le_refl _, Nat.lt_succ_self _⟩
  · intro p hp
    rw [mem_singleton] at hp
    subst hp
    exact (Nat.zero_add _).le
  · intro _
    exact ⟨_, mem_cons_self, Nat.zero_add _⟩

mutual

theorem addresses_lt {heap : List Node} : (value : Value) → Laid heap value → ∀ a ∈ value.addresses, a < heap.length
  | .leaf _, _, a, ha => by cases ha
  | .node address isArray fields, hlaid, a, ha => by
    rw [Value.addresses] at ha
    obtain rfl | ha := mem_cons.mp ha
    · exact lt_of_getElem? hlaid.1
    · exact fieldAddresses_lt fields hlaid.2 a ha

theorem fieldAddresses_lt {heap : List Node} : (fields : List (Key × Value)) → LaidFields heap fields →
    ∀ a ∈ fieldAddresses fields, a < heap.length
  | [], _, a, ha => by cases ha
  | (_, child) :: fields, hlaid, a, ha => by
    rw [fieldAddresses] at ha
    obtain ha | ha := mem_append.mp ha
    · exact addresses_lt child hlaid.1 a ha
    · exact fieldAddresses_lt fields hlaid.2 a ha

end

theorem ParsedBody.length_addresses_le (body : ParsedBody) : body.value.addresses.length ≤ body.heap.length := by
  have hsub : body.value.addresses ⊆ List.range body.heap.length := by
    intro a ha
    exact mem_range.mpr (addresses_lt _ body.laid a ha)
  have hle := (subperm_of_subset body.distinct hsub).length_le
  rwa [length_range] at hle

/-- The outcome of the call, with the state that the loop ends in. -/
theorem cloneFreezeBounded_cases (body : ParsedBody) :
    (body.value.depth ≤ ENVELOPE_BODY_MAX_DEPTH → ∃ st, CloneInv body.heap body.value body.heap.length st [] ∧
      cloneFreezeBounded body.heap body.address =
        some (.ok ((st.seen.map Prod.snd).foldl freeze st.heap, body.heap.length))) ∧
    (ENVELOPE_BODY_MAX_DEPTH < body.value.depth → ∃ error,
      cloneFreezeBounded body.heap body.address = some (.error error)) := by
  have hfuel : ([((⟨body.address, body.heap.length, 0⟩ : CloneFrame), body.value)].flatMap
      fun p => p.2.addresses).length < body.heap.length + 1 := by
    rw [flatMap_singleton]
    exact Nat.lt_succ_of_le body.length_addresses_le
  obtain ⟨hok, herror⟩ := body.start.run hfuel
  constructor
  · intro hle
    obtain ⟨st, hloop, hinv⟩ := hok hle
    refine ⟨st, hinv, ?_⟩
    simp only [cloneFreezeBounded, hloop]
    rfl
  intro hdeep
  obtain ⟨error, hloop⟩ := herror hdeep
  refine ⟨error, ?_⟩
  simp only [cloneFreezeBounded, hloop]
  rfl

theorem frozen_nodes (st : CloneState) : ∀ a ∈ st.seen.map Prod.snd, ∀ node, st.heap[a]? = some node →
    ((st.seen.map Prod.snd).foldl freeze st.heap)[a]? = some { node with frozen := true } := by
  intro a ha node hnode
  rw [getElem?_freeze, hnode, Option.map_some, if_pos ha]

theorem ClonesBounded.noProto {body : ParsedBody} (hclones : ClonesBounded body)
    (hle : body.value.depth ≤ ENVELOPE_BODY_MAX_DEPTH) : NoProto body.value := by
  obtain ⟨st, hinv, hresult⟩ := (cloneFreezeBounded_cases body).1 hle
  obtain ⟨heap, root, hcopy, hfrozenCopy, -⟩ := hclones.copies hle
  rw [hresult] at hcopy
  cases hcopy
  exact noProto_of_built (frozen_nodes st) _ _ hinv.built hfrozenCopy

/-- The copy is what it is for, unless a body within the bound has the key `__proto__` somewhere. -/
theorem clonesBounded_iff (body : ParsedBody) :
    ClonesBounded body ↔ (body.value.depth ≤ ENVELOPE_BODY_MAX_DEPTH → NoProto body.value) := by
  refine ⟨fun hclones hle => hclones.noProto hle, fun hproto => ?_⟩
  obtain ⟨hok, herror⟩ := cloneFreezeBounded_cases body
  by_cases hdeep : ENVELOPE_BODY_MAX_DEPTH < body.value.depth
  · exact ⟨⟨fun _ => hdeep, herror⟩, fun hle => by omega⟩
  obtain ⟨st, hinv, hresult⟩ := hok (Nat.le_of_not_lt hdeep)
  refine ⟨⟨?_, fun h => absurd h hdeep⟩, fun hle => ⟨_, _, hresult, ?_, ?_⟩⟩
  · rintro ⟨error, herror⟩
    rw [hresult] at herror
    cases herror
  · exact frozenCopy_of_built (fun c hc => (hinv.clones c hc).1) (frozen_nodes st) _ _ (hproto hle) hinv.built
  intro a ha
  have hold : a ∉ st.seen.map Prod.snd := by
    intro hmem
    have hlow := (hinv.clones a hmem).1
    omega
  rw [getElem?_freeze, hinv.sources a ha]
  cases body.heap[a]? with
  | none => rfl
  | some node => rw [Option.map_some, if_neg hold]

/-- A body whose field `a` is an object with an object under `__proto__`. -/
def protoBody : ParsedBody where
  heap := [⟨false, [(.name (units "a"), .ref 1)], false⟩, ⟨false, [(PROTO, .ref 2)], false⟩, ⟨false, [], false⟩]
  address := 0
  isArray := false
  fields := [(.name (units "a"), .node 1 false [(PROTO, .node 2 false [])])]
  laid := ⟨rfl, ⟨rfl, ⟨rfl, trivial⟩, trivial⟩, trivial⟩
  distinct := by decide
  keyed := by simp [Keyed, KeyedFields, PROTO]

/-- The nested key `__proto__` of a body is missing in its copy. -/
theorem protoBody_loses_key : protoBody.value.depth ≤ ENVELOPE_BODY_MAX_DEPTH ∧ ¬ClonesBounded protoBody := by
  have hshallow : protoBody.value.depth ≤ ENVELOPE_BODY_MAX_DEPTH := by decide
  refine ⟨hshallow, fun hclones => ?_⟩
  exact (hclones.noProto hshallow).2.1.1 rfl

end

end llamactl.inference.envelope
