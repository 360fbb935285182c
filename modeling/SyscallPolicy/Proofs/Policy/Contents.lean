import SyscallPolicy.Policy.Build
import SyscallPolicy.Proofs.Json.Records

/-! What a document says if a policy is read from it. The policy has every member that it knows with
the value that is written there, in full. -/
namespace SyscallPolicy
open Json (Faithful HasAll Node Slot Takes Writes)
open Policy.Printer (natural)

namespace Json.Node

/-- Records may be read from lists too. -/
def IsKeyed (node : Node) : Prop := ∀ items, node ≠ list items

/-- The items of a list that an object holds under a name. -/
def itemsOf (name : String) (node : Node) : List Node := (node.named name).flatMap items

/-- An entry is an object, and so are its checks. -/
def IsKeyedEntry (node : Node) : Prop := node.IsKeyed ∧ ∀ check ∈ node.itemsOf "args", check.IsKeyed

def IsKeyedPolicy (node : Node) : Prop :=
  node.IsKeyed ∧ ∀ entry ∈ node.itemsOf "syscalls", entry.IsKeyedEntry

theorem mem_itemsOf {name : String} {node item : Node} :
    item ∈ node.itemsOf name ↔ ∃ value ∈ node.named name, item ∈ value.items :=
  List.mem_flatMap

/-- A number in its plain digits, whatever type it is kept in. -/
def IsNumber {α : Type} (toNat : α → Nat) (node : Node) (n : α) : Prop :=
  node = number (natural (toNat n))

end Json.Node

/-- What is kept for a member: what its only value says, or a default where it has none. -/
inductive Keeps {α : Type} (Says : Node → α → Prop) (default : Option α) :
    List Node → α → Prop where
  | written {node : Node} {value : α} : Says node value → Keeps Says default [node] value
  | absent {value : α} : default = some value → Keeps Says default [] value

/-- A check has what an object says. Only its values may be left out, which are zero then. -/
structure ArgCheck.IsSaidBy (node : Node) (check : ArgCheck) : Prop where
  isObject : ∃ members, node = .object members
  index : Keeps (Node.IsNumber UInt32.toNat) none (node.named "index") check.index
  value : Keeps (Node.IsNumber UInt64.toNat) (some 0) (node.named "value") check.value
  valueTwo : Keeps (Node.IsNumber UInt64.toNat) (some 0) (node.named "valueTwo") check.valueTwo
  op : Keeps Node.IsText none (node.named "op") check.op

structure Entry.IsSaidBy (node : Node) (entry : Entry) : Prop where
  isObject : ∃ members, node = .object members
  name : Keeps Node.IsText (some "") (node.named "name") entry.name
  action : Keeps Node.IsText (some "") (node.named "action") entry.action
  errnoRet : Keeps (Node.IsNullable (Node.IsNumber UInt16.toNat)) (some none)
    (node.named "errnoRet") entry.errnoRet
  args : Keeps (Node.IsListOrNull (Node.IsNullable ArgCheck.IsSaidBy)) (some [])
    (node.named "args") entry.args

structure Policy.IsSaidBy (node : Node) (policy : Policy) : Prop where
  isObject : ∃ members, node = .object members
  defaultAction : Keeps Node.IsText none (node.named "defaultAction") policy.defaultAction
  architectures : Keeps (Node.IsListOrNull Node.IsText) (some []) (node.named "architectures")
    policy.architectures
  syscalls : Keeps (Node.IsListOrNull (Node.IsNullable Entry.IsSaidBy)) (some [])
    (node.named "syscalls") policy.syscalls

namespace Policy.Reader
open Json (faithful_readString faithful_readUnsigned readListOrNull readNullable readString
  readUnsigned)

section Slots
variable {σ α β : Type}

/-- A field with the values that its reader takes. -/
def slot (name : String) (required : Bool) (get : σ → Option α) (set : σ → α → σ)
    (reader : Json.Reader α) (Keyed : Node → Prop) (Says : Node → α → Prop) : Slot σ where
  field := field name required get set reader
  Keyed := Keyed
  Has values record := List.Forall₂ Says values (get record).toList

/-- A field takes in what its reader reads, if storing that leaves the other fields as they are. -/
theorem sound_slot {slots : List (Slot σ)} {name : String} {required : Bool} {get : σ → Option α}
    {set : σ → α → σ} {reader : Json.Reader α} {Keyed : Node → Prop} {Says : Node → α → Prop}
    (hreader : Faithful reader Keyed Says)
    (hget : ∀ record value, get (set record value) = some value)
    (hothers : ∀ record value, ∀ other ∈ slots, other.field.name ≠ name → ∀ values,
      other.Has values record → other.Has values (set record value)) :
    (slot name required get set reader Keyed Says).Sound slots where
  isSet_iff values record hhas := by
    have hlength : values.length = (get record).toList.length := List.Forall₂.length_eq hhas
    simp only [slot, field]
    cases hget : get record with
    | none =>
      rw [hget] at hlength
      simp [List.length_eq_zero_iff.mp hlength]
    | some value =>
      rw [hget] at hlength
      simp [List.ne_nil_of_length_eq_add_one hlength]
  faithful record := by
    intro node text rest hkeyed hwrites hrest
    have htakes := hreader node text rest hkeyed hwrites hrest
    refine htakes.map (fun _ => rfl) fun value _ hvalue => ⟨?_, hothers record value⟩
    simp only [slot, hget, Option.toList_some]
    exact .cons hvalue .nil

/-- A member that is read into a field is kept, and its default if the field was left out. -/
theorem keeps_of_forall₂ {Says : Node → α → Prop} {Says' : Node → β → Prop} {values : List Node}
    {found : Option α} (h : List.Forall₂ Says values found.toList) {f : α → β}
    (hsaid : ∀ node value, Says node value → Says' node (f value)) {default : Option β}
    {missing : α} (hmissing : values = [] → default = some (f missing)) :
    Keeps Says' default values (f (found.getD missing)) := by
  cases found with
  | none =>
    obtain rfl := List.forall₂_nil_right_iff.mp h
    exact .absent (hmissing rfl)
  | some value =>
    obtain ⟨node, rest, hnode, hrest, rfl⟩ := List.forall₂_cons_right_iff.mp h
    obtain rfl := List.forall₂_nil_right_iff.mp hrest
    exact .written (hsaid node value hnode)

end Slots

section Checks

def checkSlots : List (Slot ArgCheckFields) := [
  slot "index" true (·.index) (fun r v => { r with index := v }) (readUnsigned 32)
    (fun _ => True) (Node.IsNatural 32),
  slot "value" false (·.value) (fun r v => { r with value := v }) (readUnsigned 64)
    (fun _ => True) (Node.IsNatural 64),
  slot "valueTwo" false (·.valueTwo) (fun r v => { r with valueTwo := v }) (readUnsigned 64)
    (fun _ => True) (Node.IsNatural 64),
  slot "op" true (·.op) (fun r v => { r with op := v }) readString (fun _ => True) Node.IsText]

theorem tracks_checkSlots : argCheckSchema.Tracks checkSlots where
  fields_eq := rfl
  nodup := by decide
  sound := by
    simp only [checkSlots, List.forall_mem_cons, List.not_mem_nil, false_imp_iff, implies_true,
      and_true]
    refine ⟨sound_slot (faithful_readUnsigned 32) ?_ ?_,
      sound_slot (faithful_readUnsigned 64) ?_ ?_, sound_slot (faithful_readUnsigned 64) ?_ ?_,
      sound_slot faithful_readString ?_ ?_⟩
    all_goals simp [slot, field]

theorem isNumber_of_isNatural {α : Type} {width : Nat} {toNat : α → Nat} {ofNat : Nat → α}
    (hinverse : ∀ n < Nat.pow 2 width, toNat (ofNat n) = n) (node : Node) (n : Nat)
    (h : node.IsNatural width n) : node.IsNumber toNat (ofNat n) := by
  rw [Node.IsNumber, hinverse n h.1]
  exact h.2

theorem faithful_argCheck : Faithful argCheck Node.IsKeyed ArgCheck.IsSaidBy := by
  intro node text rest hkeyed hwrites _
  have hslots : ∀ slot ∈ checkSlots, ∀ value ∈ node.named slot.field.name, slot.Keyed value := by
    simp [checkSlots, slot]
  have hempty : HasAll checkSlots [] {} := by simp [HasAll, checkSlots, slot, Json.valuesOf]
  have hobject := Json.takes_object tracks_checkSlots hempty hwrites hkeyed hslots rest
  refine hobject.map (fun _ => rfl) fun record _ hrecord => ?_
  obtain ⟨members, rfl, hall, hrequired⟩ := hrecord
  simp only [HasAll, checkSlots, List.forall_mem_cons, List.not_mem_nil, false_imp_iff,
    implies_true, and_true] at hall hrequired
  obtain ⟨hindex, hvalue, hvalueTwo, hop⟩ := hall
  obtain ⟨hindex', _, _, hop'⟩ := hrequired
  have hnumber : ∀ (node : Node) (n : Nat), node.IsNatural 32 n →
      node.IsNumber UInt32.toNat n.toUInt32 :=
    isNumber_of_isNatural fun n hn => UInt32.toNat_ofNat_of_lt' hn
  have hword : ∀ (node : Node) (n : Nat), node.IsNatural 64 n →
      node.IsNumber UInt64.toNat n.toUInt64 :=
    isNumber_of_isNatural fun n hn => UInt64.toNat_ofNat_of_lt' hn
  exact {
    isObject := ⟨members, rfl⟩
    index := keeps_of_forall₂ hindex hnumber fun hnone => absurd hnone (hindex' rfl)
    value := keeps_of_forall₂ hvalue hword fun _ => rfl
    valueTwo := keeps_of_forall₂ hvalueTwo hword fun _ => rfl
    op := keeps_of_forall₂ hop (fun _ _ h => h) fun hnone => absurd hnone (hop' rfl) }

end Checks

section Entries

def entrySlots : List (Slot EntryFields) := [
  slot "name" false (·.name) (fun r v => { r with name := v }) readString (fun _ => True)
    Node.IsText,
  slot "action" false (·.action) (fun r v => { r with action := v }) readString (fun _ => True)
    Node.IsText,
  slot "errnoRet" false (·.errnoRet) (fun r v => { r with errnoRet := some v })
    (readNullable (readUnsigned 16)) (fun _ => True) (Node.IsNullable (Node.IsNatural 16)),
  slot "args" false (·.args) (fun r v => { r with args := v })
    (readListOrNull (readNullable argCheck)) (fun node => ∀ check ∈ node.items, check.IsKeyed)
    (Node.IsListOrNull (Node.IsNullable ArgCheck.IsSaidBy))]

theorem tracks_entrySlots : entrySchema.Tracks entrySlots where
  fields_eq := rfl
  nodup := by decide
  sound := by
    simp only [entrySlots, List.forall_mem_cons, List.not_mem_nil, false_imp_iff, implies_true,
      and_true]
    refine ⟨sound_slot faithful_readString ?_ ?_, sound_slot faithful_readString ?_ ?_,
      sound_slot (faithful_readUnsigned 16).nullable ?_ ?_,
      sound_slot faithful_argCheck.nullable.listOrNull ?_ ?_⟩
    all_goals simp [slot, field]

theorem faithful_entry : Faithful entry Node.IsKeyedEntry Entry.IsSaidBy := by
  intro node text rest hkeyed hwrites _
  have hslots : ∀ slot ∈ entrySlots, ∀ value ∈ node.named slot.field.name, slot.Keyed value := by
    simp only [entrySlots, slot, field, List.forall_mem_cons, implies_true, true_and]
    exact ⟨fun value hvalue check hcheck =>
      hkeyed.2 check (Node.mem_itemsOf.mpr ⟨value, hvalue, hcheck⟩), nofun⟩
  have hempty : HasAll entrySlots [] {} := by simp [HasAll, entrySlots, slot, Json.valuesOf]
  have hobject := Json.takes_object tracks_entrySlots hempty hwrites hkeyed.1 hslots rest
  refine hobject.map (fun _ => rfl) fun record _ hrecord => ?_
  obtain ⟨members, rfl, hall, -⟩ := hrecord
  simp only [HasAll, entrySlots, List.forall_mem_cons, List.not_mem_nil, false_imp_iff,
    implies_true, and_true] at hall
  obtain ⟨hname, haction, herrno, hargs⟩ := hall
  have hnumber : ∀ (node : Node) (n : Nat), node.IsNatural 16 n →
      node.IsNumber UInt16.toNat n.toUInt16 :=
    isNumber_of_isNatural fun n hn => UInt16.toNat_ofNat_of_lt' hn
  have hcode : ∀ (node : Node) (code : Option Nat), node.IsNullable (Node.IsNatural 16) code →
      node.IsNullable (Node.IsNumber UInt16.toNat) (code.map (·.toUInt16)) := by
    intro node code h
    cases h with
    | null => exact .null
    | value h => exact .value (hnumber node _ h)
  exact {
    isObject := ⟨members, rfl⟩
    name := keeps_of_forall₂ hname (fun _ _ h => h) fun _ => rfl
    action := keeps_of_forall₂ haction (fun _ _ h => h) fun _ => rfl
    errnoRet := keeps_of_forall₂ herrno hcode fun _ => rfl
    args := keeps_of_forall₂ hargs (fun _ _ h => h) fun _ => rfl }

end Entries

section Policies

def policySlots : List (Slot PolicyFields) := [
  slot "defaultAction" true (·.defaultAction) (fun r v => { r with defaultAction := v }) readString
    (fun _ => True) Node.IsText,
  slot "architectures" false (·.architectures) (fun r v => { r with architectures := v })
    (readListOrNull readString) (fun _ => True) (Node.IsListOrNull Node.IsText),
  slot "syscalls" false (·.syscalls) (fun r v => { r with syscalls := v })
    (readListOrNull (readNullable entry)) (fun node => ∀ entry ∈ node.items, entry.IsKeyedEntry)
    (Node.IsListOrNull (Node.IsNullable Entry.IsSaidBy))]

theorem tracks_policySlots : policySchema.Tracks policySlots where
  fields_eq := rfl
  nodup := by decide
  sound := by
    simp only [policySlots, List.forall_mem_cons, List.not_mem_nil, false_imp_iff, implies_true,
      and_true]
    have hnames : Faithful (readListOrNull readString) (fun _ => True)
        (Node.IsListOrNull Node.IsText) := fun node text rest _ =>
      faithful_readString.listOrNull node text rest fun _ _ => trivial
    refine ⟨sound_slot faithful_readString ?_ ?_, sound_slot hnames ?_ ?_,
      sound_slot faithful_entry.nullable.listOrNull ?_ ?_⟩
    all_goals simp [slot, field]

/-- What a policy that is read has is what the document says, whatever stands after that. -/
theorem takes_policy {document : Node} {text : List Char} (hwrites : Writes document text)
    (hkeyed : document.IsKeyedPolicy) (rest : List Text.Symbol) :
    Takes policy text rest (Policy.IsSaidBy document) := by
  have hslots : ∀ slot ∈ policySlots, ∀ value ∈ document.named slot.field.name,
      slot.Keyed value := by
    simp only [policySlots, slot, field, List.forall_mem_cons, implies_true, true_and]
    exact ⟨fun value hvalue entry hentry =>
      hkeyed.2 entry (Node.mem_itemsOf.mpr ⟨value, hvalue, hentry⟩), nofun⟩
  have hempty : HasAll policySlots [] {} := by simp [HasAll, policySlots, slot, Json.valuesOf]
  have hobject := Json.takes_object tracks_policySlots hempty hwrites hkeyed.1 hslots rest
  refine hobject.map (fun _ => rfl) fun record _ hrecord => ?_
  obtain ⟨members, rfl, hall, hrequired⟩ := hrecord
  simp only [HasAll, policySlots, List.forall_mem_cons, List.not_mem_nil, false_imp_iff,
    implies_true, and_true] at hall hrequired
  obtain ⟨hdefault, harchitectures, hsyscalls⟩ := hall
  exact {
    isObject := ⟨members, rfl⟩
    defaultAction := keeps_of_forall₂ hdefault (fun _ _ h => h) fun hnone =>
      absurd hnone (hrequired.1 rfl)
    architectures := keeps_of_forall₂ harchitectures (fun _ _ h => h) fun _ => rfl
    syscalls := keeps_of_forall₂ hsyscalls (fun _ _ h => h) fun _ => rfl }

end Policies

end Policy.Reader

end SyscallPolicy
