import SpendingLedger.Proofs.Event.RoundTrip
import SpendingLedger.Proofs.Json.Streaming

/-!
Transactions and requests as texts. Both are flat objects, and both are read back as they were:
a transaction unless it is of a leap second within a minute, which has the text of the second that
follows; a request unless its amount is a zero with a minus sign, which the text of a decimal has
but a decimal that is read has not.
-/

namespace SpendingLedger

open Json (Scalar)

namespace Transaction

/-- The transaction with the instant that is read from the text of its own. -/
def asRead (t : Transaction) : Transaction := { t with createdAt := t.createdAt.asRead }

theorem asRead_eq_self_iff (t : Transaction) : t.asRead = t ↔ t.createdAt.time.IsRegular := by
  rw [← Timestamp.asRead_eq_self_iff]
  constructor
  · exact congrArg Transaction.createdAt
  · intro h
    rw [asRead, h]

def members (t : Transaction) : List (String × Scalar) :=
  [("id", .ofInt64 t.id), ("user_id", .ofInt64 t.user.value),
    ("amount", .text t.amount.toDecimal.toText), ("description", .text t.description),
    ("is_paid", .bool t.isPaid), ("created_at", .text t.createdAt.toText)]

theorem toJson_eq (t : Transaction) : t.toJson = Json.flat t.members := rfl

theorem allExact_members (t : Transaction) : Json.AllExact t.members := by
  intro m hm
  simp only [members, List.mem_cons, List.not_mem_nil, or_false] at hm
  rcases hm with rfl | rfl | rfl | rfl | rfl | rfl
  all_goals first | exact Scalar.isExact_ofInt64 _ | trivial

/-- The members of a transaction make it up, with the instant as it is read. -/
theorem ofMembers_members (t : Transaction) :
    record.ofMembers (t.members.map fun m => (m.1, Json.scalar m.2)) = .ok t.asRead := by
  have hid {s : Draft} (h : s.id = none) :
      record.putMember s ("id", .scalar (.ofInt64 t.id)) = .ok { s with id := some t.id } :=
    Json.Record.putMember_of Draft.id (fun s v => { s with id := some v }) Scalar.int64 rfl h
      (Scalar.int64_ofInt64 t.id)
  have huser {s : Draft} (h : s.user = none) :
      record.putMember s ("user_id", .scalar (.ofInt64 t.user.value)) =
        .ok { s with user := some t.user } :=
    Json.Record.putMember_of Draft.user (fun s v => { s with user := some v }) UserId.ofScalar rfl h
      t.user.ofScalar_ofInt64
  have hamount {s : Draft} (h : s.amount = none) :
      record.putMember s ("amount", .scalar (.text t.amount.toDecimal.toText)) =
        .ok { s with amount := some t.amount } :=
    Json.Record.putMember_of Draft.amount (fun s v => { s with amount := some v }) Amount.ofScalar
      rfl h t.amount.ofScalar_toText
  have hdescription {s : Draft} (h : s.description = none) :
      record.putMember s ("description", .scalar (.text t.description)) =
        .ok { s with description := some t.description } :=
    Json.Record.putMember_of Draft.description (fun s v => { s with description := some v })
      Scalar.string rfl h rfl
  have hpaid {s : Draft} (h : s.isPaid = none) :
      record.putMember s ("is_paid", .scalar (.bool t.isPaid)) =
        .ok { s with isPaid := some t.isPaid } :=
    Json.Record.putMember_of Draft.isPaid (fun s v => { s with isPaid := some v }) Scalar.truth
      rfl h rfl
  have htime {s : Draft} (h : s.createdAt = none) :
      record.putMember s ("created_at", .scalar (.text t.createdAt.toText)) =
        .ok { s with createdAt := some t.createdAt.asRead } :=
    Json.Record.putMember_of Draft.createdAt (fun s v => { s with createdAt := some v })
      Timestamp.ofScalar rfl h t.createdAt.ofScalar_toText
  simp only [members, List.map_cons, List.map_nil]
  rw [Json.Record.ofMembers, Json.Record.foldlM_cons_ok (hid rfl),
    Json.Record.foldlM_cons_ok (huser rfl), Json.Record.foldlM_cons_ok (hamount rfl),
    Json.Record.foldlM_cons_ok (hdescription rfl), Json.Record.foldlM_cons_ok (hpaid rfl),
    Json.Record.foldlM_cons_ok (htime rfl)]
  rfl

theorem parse_toText (t : Transaction) :
    record.parse t.toJson.toText.toList = .ok t.asRead := by
  rw [Json.toText, String.toList_ofList, toJson_eq, record.parse_print_flat t.allExact_members,
    ofMembers_members]

end Transaction

namespace Command

def members (c : Command) : List (String × Scalar) :=
  [("user_id", .ofInt64 c.user), ("amount", .text c.amount.toText),
    ("description", .text c.description)]

theorem toJson_eq (c : Command) : c.toJson = Json.flat c.members := rfl

theorem allExact_members (c : Command) : Json.AllExact c.members := by
  intro m hm
  simp only [members, List.mem_cons, List.not_mem_nil, or_false] at hm
  rcases hm with rfl | rfl | rfl
  all_goals first | exact Scalar.isExact_ofInt64 _ | trivial

/-- The members of a request make it up, but for the sign of a zero. -/
theorem ofMembers_members (c : Command) :
    record.ofMembers (c.members.map fun m => (m.1, Json.scalar m.2)) =
      .ok { c with amount := c.amount.asRead } := by
  have huser {s : Draft} (h : s.user = none) :
      record.putMember s ("user_id", .scalar (.ofInt64 c.user)) =
        .ok { s with user := some c.user } :=
    Json.Record.putMember_of Draft.user (fun s v => { s with user := some v }) Scalar.int64 rfl h
      (Scalar.int64_ofInt64 c.user)
  have hread : Scalar.decimal (.text c.amount.toText) = .ok c.amount.asRead := by
    rw [Scalar.decimal, Scalar.decimal.ofText, c.amount.ofString?_toText_eq]
  have hamount {s : Draft} (h : s.amount = none) :
      record.putMember s ("amount", .scalar (.text c.amount.toText)) =
        .ok { s with amount := some c.amount.asRead } :=
    Json.Record.putMember_of Draft.amount (fun s v => { s with amount := some v }) Scalar.decimal
      rfl h hread
  -- The description may be left out, so it is no member as the others are.
  have hdescription {s : Draft} (h : s.description = none) :
      record.putMember s ("description", .scalar (.text c.description)) =
        .ok { s with description := some c.description } := by
    have hset : s.description.isSome = false := by rw [h]; rfl
    have hput := Json.Member.put_of "description" Draft.description
      (fun s v => { s with description := some v })
      (show Scalar.string (.text c.description) = .ok c.description from rfl) s
    exact Json.Record.putMember_of_find? (m := record.members[2]) rfl hset hput
  simp only [members, List.map_cons, List.map_nil]
  rw [Json.Record.ofMembers, Json.Record.foldlM_cons_ok (huser rfl),
    Json.Record.foldlM_cons_ok (hamount rfl), Json.Record.foldlM_cons_ok (hdescription rfl)]
  rfl

theorem parse_toText (c : Command) :
    record.parse c.toJson.toText.toList = .ok { c with amount := c.amount.asRead } := by
  rw [Json.toText, String.toList_ofList, toJson_eq, record.parse_print_flat c.allExact_members,
    ofMembers_members]

end Command

/-- A transaction is read back from its text as it was exactly when its time is in no leap second or
in one that follows a second 59, as is every time that is read from a text, and else with the
instant that has the same text. A request is read back as it was, with the digits and places of its
amount, unless that is a zero with a minus sign. -/
theorem records_lossless :
    (∀ t : Transaction, Transaction.record.parse t.toJson.toText.toList = .ok t.asRead ∧
      (Transaction.record.parse t.toJson.toText.toList = .ok t ↔ t.createdAt.time.IsRegular)) ∧
    (∀ cs t, Timestamp.read? cs = some t → t.time.IsRegular) ∧
    ∀ c : Command, Command.record.parse c.toJson.toText.toList = .ok c ↔
      ¬(c.amount.negative = true ∧ c.amount.IsZero) := by
  refine ⟨fun t => ⟨t.parse_toText, ?_⟩, fun _ _ => Timestamp.isRegular_of_read?, fun c => ?_⟩
  · rw [t.parse_toText, Except.ok.injEq, t.asRead_eq_self_iff]
  · rw [c.parse_toText, Except.ok.injEq, ← Decimal.asRead_eq_self_iff]
    constructor
    · exact congrArg Command.amount
    · intro h
      rw [h]

/-- A transaction of half a second into a leap second that is counted with second 6 is read as one
of half a second into second 7. -/
theorem parse_toText_within_minute :
    let date : Date := ⟨2016, 12, 31, by decide, by decide, by decide⟩
    let leap : TimeOfDay := ⟨4, 5, 6, 1500000000, by decide, by decide, by decide, by decide⟩
    let next : TimeOfDay := ⟨4, 5, 7, 500000000, by decide, by decide, by decide, by decide⟩
    let t : Transaction :=
      { id := 1, user := ⟨1, by decide⟩, amount := ⟨1250, by decide, by decide⟩
        description := "lunch", isPaid := false, createdAt := ⟨date, leap⟩ }
    Transaction.record.parse t.toJson.toText.toList = .ok { t with createdAt := ⟨date, next⟩ } ∧
      { t with createdAt := ⟨date, next⟩ } ≠ t := by
  refine ⟨?_, by decide⟩
  rw [Transaction.parse_toText]
  rfl

end SpendingLedger
