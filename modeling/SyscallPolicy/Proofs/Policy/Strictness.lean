import SyscallPolicy.Proofs.Policy.Contents

/-! Decoding is strict about the members that a policy knows. A document is refused if one of them
is repeated, missing where it is required, or of another form than its own. -/
namespace SyscallPolicy
open Json (Blanks Node Padded Takes Writes symbols valuesOf)
open Policy.Printer (natural)
open Text (Symbol)

/-- A member that an object may have, and the values that it may hold. -/
structure Known where
  name : String
  required : Bool
  Allows : Node → Prop

namespace Known

/-- What is wrong with the values that an object has for a member. Null is a value too. -/
inductive Refuses (known : Known) : List Node → Prop where
  | missing : known.required = true → known.Refuses []
  | repeated {values : List Node} : 1 < values.length → known.Refuses values
  | unfit {values : List Node} {value : Node} : value ∈ values → ¬known.Allows value →
      known.Refuses values

def text (name : String) (required : Bool) : Known :=
  ⟨name, required, fun value => ∃ text, value.IsText text⟩

/-- A member that holds a plain number of so many bits. -/
def number (name : String) (required : Bool) (width : Nat) : Known :=
  ⟨name, required, fun value => ∃ n, value.IsNatural width n⟩

/-- A member that holds a list, or null for the empty one. -/
def list (name : String) (Allows : Node → Prop) : Known where
  name := name
  required := false
  Allows value := value = .null ∨ ∃ items, value = .list items ∧ ∀ item ∈ items, Allows item

end Known

def ArgCheck.known : List Known :=
  [.number "index" true 32, .number "value" false 64, .number "valueTwo" false 64, .text "op" true]

def Entry.known : List Known := [
  .text "name" false, .text "action" false,
  ⟨"errnoRet", false, fun value => value = .null ∨ ∃ code, value.IsNatural 16 code⟩,
  .list "args" fun _ => True]

def Policy.known : List Known := [
  .text "defaultAction" true, .list "architectures" fun name => ∃ text, name.IsText text,
  .list "syscalls" fun _ => True]

/-- An object that has something wrong with one of the members that it may have. -/
def Breaks (known : List Known) (node : Node) : Prop :=
  ∃ members, node = .object members ∧
    ∃ member ∈ known, member.Refuses (valuesOf member.name members)

/-- A document in which an object of any kind is broken. -/
inductive Offends (document : Node) : Prop where
  | policy : Breaks Policy.known document → Offends document
  | entry {entry : Node} : entry ∈ document.itemsOf "syscalls" → Breaks Entry.known entry →
      Offends document
  | check {entry check : Node} : entry ∈ document.itemsOf "syscalls" →
      check ∈ entry.itemsOf "args" → Breaks ArgCheck.known check → Offends document

section Keeping
variable {α : Type} {Says : Node → α → Prop} {default : Option α} {values : List Node} {value : α}

/-- A value that is kept was not refused. -/
theorem Keeps.not_refuses (h : Keeps Says default values value) {known : Known}
    (hrequired : known.required = true → default = none)
    (hallows : ∀ node value, Says node value → known.Allows node) : ¬known.Refuses values := by
  intro hrefuses
  cases h with
  | written hsaid =>
    cases hrefuses with
    | repeated hlength => exact absurd hlength (by simp)
    | unfit hmem hunfit =>
      rw [List.mem_singleton.mp hmem] at hunfit
      exact hunfit (hallows _ _ hsaid)
  | absent hdefault =>
    cases hrefuses with
    | missing hmissing =>
      rw [hrequired hmissing] at hdefault
      cases hdefault
    | repeated hlength => cases hlength
    | unfit hmem _ => cases hmem

/-- What a list that is kept was read from says its values. -/
theorem Keeps.exists_said {node item : Node} {name : String} {default : Option (List (Option α))}
    {values : List (Option α)}
    (h : Keeps (Node.IsListOrNull (Node.IsNullable Says)) default (node.named name) values)
    (hitem : item ∈ node.itemsOf name) (hnull : item ≠ .null) : ∃ value, Says item value := by
  obtain ⟨holder, hholder, hitem⟩ := Node.mem_itemsOf.mp hitem
  generalize node.named name = holders at h hholder
  cases h with
  | written hsaid =>
    obtain rfl := List.mem_singleton.mp hholder
    cases hsaid with
    | null => cases hitem
    | list hlist =>
      cases hlist with
      | list hitems =>
        obtain ⟨value, _, hvalue⟩ := exists_mem_of_forall₂ hitems.flip hitem
        cases hvalue with
        | null => exact absurd rfl hnull
        | value hsaid => exact ⟨_, hsaid⟩
  | absent => cases hholder

end Keeping

theorem Breaks.ne_null {known : List Known} {node : Node} (h : Breaks known node) :
    node ≠ .null := by
  obtain ⟨members, rfl, _⟩ := h
  nofun

/-- An object is whole if none of its members is refused. -/
theorem not_breaks_of_forall {known : List Known} {node : Node}
    (h : ∀ member ∈ known, ¬member.Refuses (node.named member.name)) : ¬Breaks known node := by
  rintro ⟨members, rfl, member, hmember, hrefuses⟩
  exact h member hmember hrefuses

theorem Known.allows_number {α : Type} {name : String} {required : Bool} {width : Nat}
    {toNat : α → Nat} (hbound : ∀ n, toNat n < Nat.pow 2 width) (node : Node) (n : α)
    (h : node.IsNumber toNat n) : (Known.number name required width).Allows node :=
  ⟨toNat n, hbound n, h⟩

theorem Known.allows_list {α : Type} {Says : Node → α → Prop} {Allows : Node → Prop} {name : String}
    (hallows : ∀ node value, Says node value → Allows node) (node : Node) (values : List α)
    (h : node.IsListOrNull Says values) : (Known.list name Allows).Allows node := by
  cases h with
  | null => exact .inl rfl
  | list hlist =>
    cases hlist with
    | list hitems =>
      refine .inr ⟨_, rfl, fun item hitem => ?_⟩
      obtain ⟨value, _, hsaid⟩ := exists_mem_of_forall₂ hitems.flip hitem
      exact hallows item value hsaid

theorem ArgCheck.IsSaidBy.not_breaks {node : Node} {check : ArgCheck} (h : check.IsSaidBy node) :
    ¬Breaks ArgCheck.known node := by
  refine not_breaks_of_forall ?_
  simp only [ArgCheck.known, List.forall_mem_cons, List.not_mem_nil, false_imp_iff, implies_true,
    and_true]
  exact ⟨h.index.not_refuses (fun _ => rfl) (Known.allows_number UInt32.toNat_lt),
    h.value.not_refuses nofun (Known.allows_number UInt64.toNat_lt),
    h.valueTwo.not_refuses nofun (Known.allows_number UInt64.toNat_lt),
    h.op.not_refuses (fun _ => rfl) fun _ text htext => ⟨text, htext⟩⟩

theorem Entry.IsSaidBy.not_breaks {node : Node} {entry : Entry} (h : entry.IsSaidBy node) :
    ¬Breaks Entry.known node := by
  have herrno : ∀ (value : Node) (code : Option UInt16),
      value.IsNullable (Node.IsNumber UInt16.toNat) code →
        value = .null ∨ ∃ n, value.IsNatural 16 n := by
    intro value code hcode
    cases hcode with
    | null => exact .inl rfl
    | @value _ code hnumber => exact .inr ⟨code.toNat, code.toNat_lt, hnumber⟩
  refine not_breaks_of_forall ?_
  simp only [Entry.known, List.forall_mem_cons, List.not_mem_nil, false_imp_iff, implies_true,
    and_true]
  exact ⟨h.name.not_refuses nofun fun _ text htext => ⟨text, htext⟩,
    h.action.not_refuses nofun fun _ text htext => ⟨text, htext⟩,
    h.errnoRet.not_refuses nofun herrno,
    h.args.not_refuses nofun (Known.allows_list fun _ _ _ => trivial)⟩

namespace Policy

theorem IsSaidBy.not_breaks {node : Node} {policy : Policy} (h : policy.IsSaidBy node) :
    ¬Breaks known node := by
  refine not_breaks_of_forall ?_
  simp only [known, List.forall_mem_cons, List.not_mem_nil, false_imp_iff, implies_true, and_true]
  exact ⟨h.defaultAction.not_refuses (fun _ => rfl) fun _ text htext => ⟨text, htext⟩,
    h.architectures.not_refuses nofun (Known.allows_list fun _ text htext => ⟨text, htext⟩),
    h.syscalls.not_refuses nofun (Known.allows_list fun _ _ _ => trivial)⟩

/-- A document that a policy has all of offends nowhere. -/
theorem IsSaidBy.not_offends {document : Node} {policy : Policy} (h : policy.IsSaidBy document) :
    ¬Offends document := by
  intro hoffends
  cases hoffends with
  | policy hbreaks => exact h.not_breaks hbreaks
  | entry hentry hbreaks =>
    obtain ⟨entry, hsaid⟩ := h.syscalls.exists_said hentry hbreaks.ne_null
    exact hsaid.not_breaks hbreaks
  | @check node _ hentry hcheck hbreaks =>
    have hobject : node ≠ .null := by
      rintro rfl
      cases hcheck
    obtain ⟨entry, hsaid⟩ := h.syscalls.exists_said hentry hobject
    obtain ⟨check, hcheck⟩ := hsaid.args.exists_said hcheck hbreaks.ne_null
    exact hcheck.not_breaks hbreaks

/-- Only blanks may follow a document, and the policy has all that the document says. -/
theorem isSaidBy_of_ofJson {text trailing : String} {document : Node}
    (hwrites : Padded (Writes document) text.toList) (hkeyed : document.IsKeyedPolicy)
    {policy : Policy} (h : ofJson (text ++ trailing) = .ok policy) :
    policy.IsSaidBy document ∧ Blanks trailing.toList := by
  obtain ⟨written, rfl, htext, hcore, hspaced⟩ := Json.Written.of_padded hwrites
  have htakes : Takes Reader.policy written.text (symbols trailing.toList) _ :=
    (Reader.takes_policy hcore hkeyed _).padded hspaced
  have hsymbols : Symbol.ofString (text ++ trailing) =
      symbols written.text ++ symbols trailing.toList := by
    rw [htext, Symbol.ofString, String.toList_append, List.map_append]
  rw [ofJson, ofSymbols, hsymbols, Json.Reader.document] at h
  split at h
  · cases h
  · next found behind hread =>
    obtain ⟨hsaid, hbehind⟩ := htakes _ _ _ rfl hread
    rw [hbehind] at h
    split at h
    · next hempty =>
      cases h
      exact ⟨hsaid, Json.blanks_of_skipBlanks (List.isEmpty_iff.mp hempty)⟩
    · cases h

theorem decode_eq_ok_or (text : String) :
    (∃ policy, ofJson text = .ok policy ∧ decode text = .ok policy) ∨
      ∃ fault, decode text = .error (.decode (.json fault)) := by
  rw [decode]
  cases ofJson text with
  | ok policy => exact .inl ⟨policy, rfl, rfl⟩
  | error fault => exact .inr ⟨fault, rfl⟩

/-- Decoding fails on a document that offends anywhere, and on any document with more than blanks
behind it. What is decoded has every member of the document with the value that is written there:
numbers in full, and lists in order, with the nulls in them. -/
theorem decode_strict {text : String} {document : Node}
    (hwrites : Padded (Writes document) text.toList) (hkeyed : document.IsKeyedPolicy) :
    (Offends document → ∃ fault, decode text = .error (.decode (.json fault))) ∧
      (∀ trailing : String, ¬Blanks trailing.toList →
        ∃ fault, decode (text ++ trailing) = .error (.decode (.json fault))) ∧
      ∀ policy, decode text = .ok policy → policy.IsSaidBy document := by
  have hsaid : ∀ policy, ofJson text = .ok policy → policy.IsSaidBy document := by
    intro policy hpolicy
    rw [← String.append_empty (s := text)] at hpolicy
    exact (isSaidBy_of_ofJson hwrites hkeyed hpolicy).1
  refine ⟨fun hoffends => ?_, fun trailing htrailing => ?_, fun policy hpolicy => ?_⟩
  · refine (decode_eq_ok_or text).resolve_left ?_
    rintro ⟨policy, hpolicy, _⟩
    exact (hsaid policy hpolicy).not_offends hoffends
  · refine (decode_eq_ok_or (text ++ trailing)).resolve_left ?_
    rintro ⟨policy, hpolicy, _⟩
    exact htrailing (isSaidBy_of_ofJson hwrites hkeyed hpolicy).2
  · exact hsaid policy (mapError_eq_ok.mp hpolicy)

/-- A document that gives the default action twice is refused. One that has the largest number of 64
bits in it is decoded, and refused where anything follows it. -/
theorem decode_strict_repeated :
    let repeated : Node := .object [
      (some "defaultAction", .string (some "A")), (some "defaultAction", .string (some "B"))]
    let refused := "\x7b\"defaultAction\":\"A\",\"defaultAction\":\"B\"\x7d"
    let check : Node := .object [(some "op", .string (some "=")),
      (some "index", .number (natural 7)), (some "value", .number (natural 18446744073709551615))]
    let document : Node := .object [
      (some "syscalls", .list [.null, .object [(some "args", .list [check])]]),
      (some "defaultAction", .string (some "A"))]
    let text := "\x7b\"syscalls\":[null,\x7b\"args\":[\x7b\"op\":\"=\",\"index\":7," ++
      "\"value\":18446744073709551615\x7d]\x7d],\"defaultAction\":\"A\"\x7d"
    let policy : Policy :=
      ⟨"A", [], [none, some ⟨"", "", none, [some ⟨7, 18446744073709551615, 0, "="⟩]⟩]⟩
    (Padded (Writes repeated) refused.toList ∧ repeated.IsKeyedPolicy ∧ Offends repeated ∧
        ∃ fault, decode refused = .error (.decode (.json fault))) ∧
      Padded (Writes document) text.toList ∧ document.IsKeyedPolicy ∧
        decode text = .ok policy ∧ policy.IsSaidBy document ∧
        ¬Blanks "x".toList ∧ ∃ fault, decode (text ++ "x") = .error (.decode (.json fault)) := by
  intro repeated refused check document text policy
  have hrepeated : Padded (Writes repeated) refused.toList := by
    have hwrites := @Json.writes_object [("defaultAction", _, _), ("defaultAction", _, _)]
      (List.forall_mem_cons.mpr ⟨Json.writes_string "A",
        List.forall_mem_singleton.mpr (Json.writes_string "B")⟩)
    refine Json.padded_self (Eq.mp (congrArg _ ?_) hwrites)
    decide +kernel
  have hkeyed : repeated.IsKeyedPolicy := by
    simp [Node.IsKeyedPolicy, Node.IsKeyed, Node.itemsOf, Node.named, valuesOf, repeated]
  have hoffends : Offends repeated :=
    .policy ⟨_, rfl, _, List.mem_cons_self, .repeated (by decide)⟩
  have hcheck : Writes check _ :=
    @Json.writes_object [("op", _, _), ("index", _, _), ("value", _, _)]
      (List.forall_mem_cons.mpr ⟨Json.writes_string "=", List.forall_mem_cons.mpr
        ⟨Json.writes_natural 7, List.forall_mem_singleton.mpr (Json.writes_natural _)⟩⟩)
  have hargs := @Json.writes_list [(check, _)] (List.forall_mem_singleton.mpr hcheck)
  have hentry := @Json.writes_object [("args", _, _)] (List.forall_mem_singleton.mpr hargs)
  have hsyscalls := @Json.writes_list [(.null, _), (_, _)]
    (List.forall_mem_cons.mpr ⟨.null, List.forall_mem_singleton.mpr hentry⟩)
  have hdocument : Padded (Writes document) text.toList := by
    have hwrites := @Json.writes_object [("syscalls", _, _), ("defaultAction", _, _)]
      (List.forall_mem_cons.mpr ⟨hsyscalls, List.forall_mem_singleton.mpr (Json.writes_string "A")⟩)
    refine Json.padded_self (Eq.mp (congrArg _ ?_) hwrites)
    decide +kernel
  have hkeyed' : document.IsKeyedPolicy := by
    simp [Node.IsKeyedPolicy, Node.IsKeyedEntry, Node.IsKeyed, Node.itemsOf, Node.named, valuesOf,
      Node.items, document, check]
  obtain ⟨hrefused, -⟩ := decode_strict hrepeated hkeyed
  obtain ⟨-, htrailing, hsaid⟩ := decode_strict hdocument hkeyed'
  have hdecode : decode text = .ok policy := by decide +kernel
  have hblanks : ¬Blanks "x".toList := fun h => absurd (h 'x' List.mem_cons_self) (by decide)
  exact ⟨⟨hrepeated, hkeyed, hoffends, hrefused hoffends⟩, hdocument, hkeyed', hdecode,
    hsaid policy hdecode, hblanks, htrailing "x" hblanks⟩

end Policy

end SyscallPolicy
