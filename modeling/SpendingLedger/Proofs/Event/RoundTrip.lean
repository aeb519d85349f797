import SpendingLedger.Event
import SpendingLedger.Proofs.Decimal.RoundTrip
import SpendingLedger.Proofs.Json.RoundTrip
import SpendingLedger.Proofs.Timestamp.RoundTrip

/-!
Every event is what its envelope opens to: writing and reading lose nothing, except where the text
of a leap second within a minute is that of the second that follows.
-/

namespace SpendingLedger

/-! ### Scalars -/

/-- A whole number as a scalar. -/
def Json.Scalar.ofInt64 (i : Int64) : Scalar :=
  .number (if 0 ≤ i then .natural i.toUInt64 else .negative i)

theorem Json.Scalar.isExact_ofInt64 (i : Int64) : (ofInt64 i).IsExact := by
  rw [ofInt64]
  split
  · trivial
  · next h => exact Int64.not_le.1 h

theorem Json.Scalar.int64_ofInt64 (i : Int64) : (ofInt64 i).int64 = .ok i := by
  rw [ofInt64]
  split
  · next h =>
    have hle : 0 ≤ i.toInt := Int64.le_iff_toInt_le.1 h
    have hlt := i.toInt_lt
    have hnat : i.toUInt64.toNat = i.toInt.toNat := Int64.toNat_toUInt64_of_le h
    have hback : Int64.ofNat i.toInt.toNat = i := Int64.ofNat_toNatClampNeg i h
    rw [int64, hnat, if_pos (by omega), hback]
  · rfl

theorem UserId.ofScalar_ofInt64 (u : UserId) : ofScalar (.ofInt64 u.value) = .ok u := by
  have hof : of? u.value = some u := by rw [of?, dif_pos u.pos]
  simp only [ofScalar, Json.Scalar.int64_ofInt64, Bind.bind, Except.bind, hof]
  rfl

/-! ### Members -/

theorem Json.Record.putMember_of_find? {σ α : Type} {r : Record σ α} {name : String} {m : Member σ}
    (hfind : r.members.find? (fun m => m.name == name) = some m) {s s' : σ}
    (hset : m.isSet s = false) {v : Scalar} (hput : m.put s v = .ok s') :
    r.putMember s (name, .scalar v) = .ok s' := by
  simp only [putMember, freshMember?, hfind, hset]
  exact hput

theorem Json.Member.put_of {σ β : Type} (name : String) (get : σ → Option β) (set : σ → β → σ)
    {decode : Scalar → Except Fault β} {v : Scalar} {x : β} (hv : decode v = .ok x) (s : σ) :
    (Member.of name get set decode).put s v = .ok (set s x) := by
  show (do return set s (← decode v)) = _
  rw [hv]
  rfl

/-- A member that the record names, and that was not there yet, is decoded and stored. -/
theorem Json.Record.putMember_of {σ α β : Type} {r : Record σ α} {name : String}
    (get : σ → Option β) (set : σ → β → σ) (decode : Scalar → Except Fault β)
    (hfind : r.members.find? (fun m => m.name == name) = some (.of name get set decode)) {s : σ}
    (hnone : get s = none) {v : Scalar} {x : β} (hv : decode v = .ok x) :
    r.putMember s (name, .scalar v) = .ok (set s x) := by
  have hset : (Member.of name get set decode).isSet s = false := by
    show (get s).isSome = false
    rw [hnone]
    rfl
  exact putMember_of_find? hfind hset (Member.put_of name get set hv s)

theorem Json.Record.foldlM_cons_ok {σ α : Type} {r : Record σ α} {s s' : σ} {entry : String × Json}
    (h : r.putMember s entry = .ok s') (rest : List (String × Json)) :
    (entry :: rest).foldlM r.putMember s = rest.foldlM r.putMember s' := by
  rw [List.foldlM_cons, h]
  rfl

namespace Event

/-- The members of the envelope of an event. -/
def members : Event → List (String × Json.Scalar)
  | created id user amount description time =>
    [("event_type", .text Kind.created.tag), ("transaction_id", .ofInt64 id),
      ("user_id", .ofInt64 user.value), ("amount", .text amount.toDecimal.toText),
      ("description", .text description), ("timestamp", .text time.toText)]
  | paid user count time =>
    [("event_type", .text Kind.paid.tag), ("user_id", .ofInt64 user.value),
      ("transactions_paid", .number (.natural count)), ("timestamp", .text time.toText)]

/-- The event with the instant that is read from the text of its own. -/
def asRead : Event → Event
  | created id user amount description time => created id user amount description time.asRead
  | paid user count time => paid user count time.asRead

theorem asRead_eq_self_iff (e : Event) : e.asRead = e ↔ e.time.time.IsRegular := by
  cases e with
  | created id user amount description time =>
    rw [asRead, created.injEq, Timestamp.asRead_eq_self_iff]
    simp only [true_and, Event.time]
  | paid user count time =>
    rw [asRead, paid.injEq, Timestamp.asRead_eq_self_iff]
    simp only [true_and, Event.time]

theorem toJson_eq (e : Event) : e.toJson = Json.flat e.members := by
  cases e <;> rfl

theorem allExact_members (e : Event) : Json.AllExact e.members := by
  intro m hm
  cases e <;> simp only [members, List.mem_cons, List.not_mem_nil, or_false] at hm
  · rcases hm with rfl | rfl | rfl | rfl | rfl | rfl
    all_goals first | exact Json.Scalar.isExact_ofInt64 _ | trivial
  · rcases hm with rfl | rfl | rfl | rfl
    all_goals first | exact Json.Scalar.isExact_ofInt64 _ | trivial

theorem tag?_toJson (e : Event) : tag? e.toJson = some e.kind.tag := by
  cases e <;> rfl

theorem isSome_ofTag? (k : Kind) : (Kind.ofTag? k.tag).isSome = true := by
  cases k <;> rfl

/-! ### Reading -/

theorem putMember_user (k : Kind) (u : UserId) {s : Draft} (h : s.user = none) :
    k.record.putMember s ("user_id", .scalar (.ofInt64 u.value)) =
      .ok { s with user := some u } := by
  refine Json.Record.putMember_of Draft.user (fun s v => { s with user := some v }) UserId.ofScalar
    ?_ h u.ofScalar_ofInt64
  cases k <;> rfl

theorem putMember_time (k : Kind) (t : Timestamp) {s : Draft} (h : s.time = none) :
    k.record.putMember s ("timestamp", .scalar (.text t.toText)) =
      .ok { s with time := some t.asRead } := by
  refine Json.Record.putMember_of Draft.time (fun s v => { s with time := some v })
    Timestamp.ofScalar ?_ h t.ofScalar_toText
  cases k <;> rfl

theorem ofMembers_created (id : Int64) (user : UserId) (amount : Amount) (description : String)
    (time : Timestamp) :
    Kind.created.record.ofMembers [("amount", .scalar (.text amount.toDecimal.toText)),
      ("description", .scalar (.text description)), ("timestamp", .scalar (.text time.toText)),
      ("transaction_id", .scalar (.ofInt64 id)), ("user_id", .scalar (.ofInt64 user.value))] =
    .ok (created id user amount description time.asRead) := by
  have hid {s : Draft} (h : s.transaction = none) :
      Kind.created.record.putMember s ("transaction_id", .scalar (.ofInt64 id)) =
        .ok { s with transaction := some id } :=
    Json.Record.putMember_of Draft.transaction (fun s v => { s with transaction := some v })
      Json.Scalar.int64 rfl h (Json.Scalar.int64_ofInt64 id)
  have hamount {s : Draft} (h : s.amount = none) :
      Kind.created.record.putMember s ("amount", .scalar (.text amount.toDecimal.toText)) =
        .ok { s with amount := some amount } :=
    Json.Record.putMember_of Draft.amount (fun s v => { s with amount := some v }) Amount.ofScalar
      rfl h amount.ofScalar_toText
  have hdescription {s : Draft} (h : s.description = none) :
      Kind.created.record.putMember s ("description", .scalar (.text description)) =
        .ok { s with description := some description } :=
    Json.Record.putMember_of Draft.description (fun s v => { s with description := some v })
      Json.Scalar.string rfl h rfl
  rw [Json.Record.ofMembers, Json.Record.foldlM_cons_ok (hamount rfl),
    Json.Record.foldlM_cons_ok (hdescription rfl),
    Json.Record.foldlM_cons_ok (putMember_time .created time rfl),
    Json.Record.foldlM_cons_ok (hid rfl),
    Json.Record.foldlM_cons_ok (putMember_user .created user rfl)]
  rfl

theorem ofMembers_paid (user : UserId) (count : UInt64) (time : Timestamp) :
    Kind.paid.record.ofMembers [("timestamp", .scalar (.text time.toText)),
      ("transactions_paid", .scalar (.number (.natural count))),
      ("user_id", .scalar (.ofInt64 user.value))] =
    .ok (paid user count time.asRead) := by
  have hcount {s : Draft} (h : s.count = none) :
      Kind.paid.record.putMember s ("transactions_paid", .scalar (.number (.natural count))) =
        .ok { s with count := some count } :=
    Json.Record.putMember_of Draft.count (fun s v => { s with count := some v })
      Json.Scalar.uint64 rfl h rfl
  rw [Json.Record.ofMembers, Json.Record.foldlM_cons_ok (putMember_time .paid time rfl),
    Json.Record.foldlM_cons_ok (hcount rfl),
    Json.Record.foldlM_cons_ok (putMember_user .paid user rfl)]
  rfl

/-- All members but the tag are kept as they stand. -/
theorem foldlM_kept {entries : List (String × Json)} (h : ∀ m ∈ entries, m.1 ≠ "event_type")
    (s : Opened) :
    entries.foldlM objectRecord.putMember s = .ok { s with members := s.members ++ entries } := by
  induction entries generalizing s with
  | nil => rw [List.append_nil]; rfl
  | cons entry rest ih =>
    have hname : ("event_type" == entry.1) = false := by
      rw [beq_eq_false_iff_ne]
      exact (h entry List.mem_cons_self).symm
    have hfind : objectRecord.members.find? (fun m => m.name == entry.1) = none := by
      simp only [objectRecord, envelopeRecord, Json.Member.of, List.find?_cons, hname,
        List.find?_nil]
    have hput :
        objectRecord.putMember s entry = .ok { s with members := s.members ++ [entry] } := by
      simp only [Json.Record.putMember, Json.Record.freshMember?, hfind]
      rfl
    rw [Json.Record.foldlM_cons_ok hput, ih fun m hm => h m (List.mem_cons_of_mem _ hm),
      List.append_assoc, List.singleton_append]

/-- Wherever the tag stands, it tells how the other members are read. -/
theorem ofMembers_tagged (k : Kind) {before after : List (String × Json)}
    (hbefore : ∀ m ∈ before, m.1 ≠ "event_type") (hafter : ∀ m ∈ after, m.1 ≠ "event_type") :
    objectRecord.ofMembers (before ++ ("event_type", .scalar (.text k.tag)) :: after) =
      k.record.ofMembers (before ++ after) := by
  have htag : objectRecord.putMember { members := before } ("event_type", .scalar (.text k.tag)) =
      .ok { kind := some k, members := before } := by
    cases k <;> rfl
  have hread : (before ++ ("event_type", .scalar (.text k.tag)) :: after).foldlM
      objectRecord.putMember {} = .ok { kind := some k, members := before ++ after } := by
    rw [List.foldlM_append, foldlM_kept hbefore]
    show (("event_type", Json.scalar (.text k.tag)) :: after).foldlM objectRecord.putMember
      { members := before } = _
    rw [Json.Record.foldlM_cons_ok htag, foldlM_kept hafter]
  show (do
    objectRecord.finish (← (before ++ ("event_type", Json.scalar (.text k.tag)) :: after).foldlM
      objectRecord.putMember {})) = _
  rw [hread]
  rfl

/-! ### The order of the names -/

theorem insertSorted_nil (entry : String × Json) : insertSorted entry [] = [entry] := rfl

theorem insertSorted_before {a b : String} (h : a < b) (v w : Json)
    (rest : List (String × Json)) :
    insertSorted (a, v) ((b, w) :: rest) = (a, v) :: (b, w) :: rest := by
  rw [insertSorted, if_pos h]

theorem insertSorted_after {a b : String} (h : ¬ a < b) (hne : a ≠ b) (v w : Json)
    (rest : List (String × Json)) :
    insertSorted (a, v) ((b, w) :: rest) = (b, w) :: insertSorted (a, v) rest := by
  rw [insertSorted, if_neg h, if_neg hne]

theorem sortedMembers_created (id : Int64) (user : UserId) (amount : Amount)
    (description : String) (time : Timestamp) :
    sortedMembers ((members (created id user amount description time)).map
        fun m => (m.1, Json.scalar m.2)) =
      [("amount", .scalar (.text amount.toDecimal.toText)),
        ("description", .scalar (.text description))] ++
      ("event_type", .scalar (.text Kind.created.tag)) ::
      [("timestamp", .scalar (.text time.toText)), ("transaction_id", .scalar (.ofInt64 id)),
        ("user_id", .scalar (.ofInt64 user.value))] := by
  simp (disch := decide) only [members, sortedMembers, List.map_cons, List.map_nil,
    List.foldl_cons, List.foldl_nil, insertSorted_nil, insertSorted_before, insertSorted_after]
  rfl

theorem sortedMembers_paid (user : UserId) (count : UInt64) (time : Timestamp) :
    sortedMembers ((members (paid user count time)).map fun m => (m.1, Json.scalar m.2)) =
      [] ++ ("event_type", .scalar (.text Kind.paid.tag)) ::
      [("timestamp", .scalar (.text time.toText)),
        ("transactions_paid", .scalar (.number (.natural count))),
        ("user_id", .scalar (.ofInt64 user.value))] := by
  simp (disch := decide) only [members, sortedMembers, List.map_cons, List.map_nil,
    List.foldl_cons, List.foldl_nil, insertSorted_nil, insertSorted_before, insertSorted_after]
  rfl

/-- An envelope is read member by member in the order of their names. -/
theorem ofJson_toJson (e : Event) : ofJson e.toJson = .ok e.asRead := by
  cases e with
  | created id user amount description time =>
    rw [toJson_eq, Json.flat, ofJson, sortedMembers_created,
      ofMembers_tagged .created (by simp) (by simp)]
    exact ofMembers_created id user amount description time
  | paid user count time =>
    rw [toJson_eq, Json.flat, ofJson, sortedMembers_paid,
      ofMembers_tagged .paid (by simp) (by simp)]
    exact ofMembers_paid user count time

theorem textOfBytes_toUTF8 (s : String) : Json.textOfBytes s.toUTF8 = .ok s.toList := by
  have hutf8 : String.fromUTF8? s.toUTF8 = some s := by
    show (if h : s.toByteArray.IsValidUTF8 then some (String.fromUTF8 s.toByteArray h)
      else none) = _
    rw [dif_pos s.isValidUTF8]
    rfl
  rw [Json.textOfBytes, hutf8]

/-- Every event is what its envelope opens to, with the instant as it is read. -/
theorem decode_encode (e : Event) : decode e.encode = .ok (.event e.asRead) := by
  have htext : Json.textOfBytes e.encode = .ok e.toJson.print := by
    rw [encode, Json.toText, textOfBytes_toUTF8, String.toList_ofList]
  have hparse : Json.parse e.toJson.print = .ok e.toJson := by
    rw [toJson_eq]
    exact Json.parse_print_flat e.allExact_members
  simp only [decode, htext, bind, Except.bind, hparse, tag?_toJson, isSome_ofTag?, ↓reduceIte,
    ofJson_toJson]
  rfl

theorem encode_asRead (e : Event) : e.asRead.encode = e.encode := by
  cases e with
  | created id user amount description time =>
    simp only [encode, asRead, toJson, Timestamp.toJson_asRead]
  | paid user count time => simp only [encode, asRead, toJson, Timestamp.toJson_asRead]

theorem encode_eq_encode_iff (e e' : Event) : e'.encode = e.encode ↔ e'.asRead = e.asRead := by
  constructor
  · intro h
    have hopen : decode e.encode = .ok (.event e'.asRead) := h ▸ e'.decode_encode
    rw [e.decode_encode] at hopen
    injection hopen with henvelope
    injection henvelope with heq
    exact heq.symm
  · intro h
    rw [← e'.encode_asRead, h, e.encode_asRead]

/-- The amount of an event, if it tells of one. -/
def amount? : Event → Option Amount
  | created _ _ amount _ _ => some amount
  | paid .. => none

/-- An event comes out of its envelope as it went in, exactly when its time is in no leap second or
in one that follows a second 59, in any year. In another leap second it comes out with the instant
that has the same text, and events have one envelope only if they are read alike. The amount in the
envelope has two places, neither more nor fewer, and the time is exact to the nanosecond. No time
that is read from a text is in such a leap second. -/
theorem envelope_lossless (e : Event) :
    decode e.encode = .ok (.event e.asRead) ∧
    (decode e.encode = .ok (.event e) ↔ e.time.time.IsRegular) ∧
    (∀ e' : Event, e'.encode = e.encode ↔ e'.asRead = e.asRead) ∧
    (∀ a, e.amount? = some a →
      a.toDecimal.scale = 2 ∧ Decimal.ofString? a.toDecimal.toText = some a.toDecimal) ∧
    Timestamp.read? e.time.print = some e.time.asRead ∧
    (∀ cs t, Timestamp.read? cs = some t → t.time.IsRegular) := by
  refine ⟨e.decode_encode, ?_, e.encode_eq_encode_iff, fun a _ => ⟨rfl, ?_⟩, e.time.read?_print,
    fun _ _ => Timestamp.isRegular_of_read?⟩
  · rw [e.decode_encode, ← e.asRead_eq_self_iff, Except.ok.injEq, Envelope.event.injEq]
  · exact Decimal.ofString?_toText nofun

/-- Half a second into a leap second that is counted with second 6, a payment is written like one
half a second into second 7, and read as that one. -/
theorem decode_encode_within_minute :
    let date : Date := ⟨2016, 12, 31, by decide, by decide, by decide⟩
    let leap : TimeOfDay := ⟨4, 5, 6, 1500000000, by decide, by decide, by decide, by decide⟩
    let next : TimeOfDay := ⟨4, 5, 7, 500000000, by decide, by decide, by decide, by decide⟩
    let user : UserId := ⟨1, by decide⟩
    decode (paid user 1 ⟨date, leap⟩).encode = .ok (.event (paid user 1 ⟨date, next⟩)) ∧
      paid user 1 ⟨date, next⟩ ≠ paid user 1 ⟨date, leap⟩ := by
  refine ⟨?_, by decide⟩
  rw [decode_encode]
  rfl

end Event

end SpendingLedger
