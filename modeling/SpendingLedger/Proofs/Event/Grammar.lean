import Mathlib.Data.List.Induction
import Mathlib.Data.List.Sort
import Mathlib.Data.String.Basic
import SpendingLedger.Proofs.Event.RoundTrip
import SpendingLedger.Proofs.Json.Fields
import SpendingLedger.Proofs.Timestamp.Standard

/-!
Which messages hold an event. An envelope is taken by the last member of each name, in the order of
the names, and all that counts are the tag and the fields that the tag asks for.
-/

namespace SpendingLedger

namespace Event

/-! ### The members in order -/

theorem mem_insertSorted {entry x : String × Json} {l : List (String × Json)}
    (h : x ∈ insertSorted entry l) : x = entry ∨ x ∈ l := by
  induction l with
  | nil => exact .inl (List.mem_singleton.1 h)
  | cons e rest ih =>
    rw [insertSorted] at h
    split at h
    · exact List.mem_cons.1 h
    · split at h
      · exact (List.mem_cons.1 h).imp_right (List.mem_cons_of_mem e)
      · rcases List.mem_cons.1 h with rfl | h
        · exact .inr List.mem_cons_self
        · exact (ih h).imp_right (List.mem_cons_of_mem e)

theorem pairwise_insertSorted (entry : String × Json) {l : List (String × Json)}
    (h : l.Pairwise (·.1 < ·.1)) : (insertSorted entry l).Pairwise (·.1 < ·.1) := by
  induction l with
  | nil => exact List.pairwise_singleton _ _
  | cons e rest ih =>
    obtain ⟨hfirst, hrest⟩ := List.pairwise_cons.1 h
    rw [insertSorted]
    split
    · next hlt =>
      refine List.pairwise_cons.2 ⟨fun x hx => ?_, h⟩
      rcases List.mem_cons.1 hx with rfl | hx
      · exact hlt
      · exact hlt.trans (hfirst x hx)
    · next hlt =>
      split
      · next heq => exact List.pairwise_cons.2 ⟨fun x hx => heq ▸ hfirst x hx, hrest⟩
      · next hne =>
        refine List.pairwise_cons.2 ⟨fun x hx => ?_, ih hrest⟩
        rcases mem_insertSorted hx with rfl | hx
        · exact lt_of_le_of_ne (not_lt.1 hlt) (Ne.symm hne)
        · exact hfirst x hx

theorem mem_insertSorted_iff {entry x : String × Json} {l : List (String × Json)}
    (h : l.Pairwise (·.1 < ·.1)) :
    x ∈ insertSorted entry l ↔ x = entry ∨ (x.1 ≠ entry.1 ∧ x ∈ l) := by
  induction l with
  | nil => simp [insertSorted]
  | cons e rest ih =>
    obtain ⟨hfirst, hrest⟩ := List.pairwise_cons.1 h
    rw [insertSorted]
    split
    · next hlt =>
      have hne : x ∈ e :: rest → x.1 ≠ entry.1 := by
        intro hx
        rcases List.mem_cons.1 hx with rfl | hx
        · exact hlt.ne'
        · exact (hlt.trans (hfirst x hx)).ne'
      rw [List.mem_cons, and_iff_right_of_imp hne]
    · split
      · next heq =>
        have hne : x ∈ rest → x.1 ≠ entry.1 := fun hx => heq ▸ (hfirst x hx).ne'
        have hhead : x.1 ≠ entry.1 → x ≠ e := fun hx hxe => hx (hxe ▸ heq.symm)
        grind
      · next hne => grind

theorem sortedMembers_concat (members : List (String × Json)) (entry : String × Json) :
    sortedMembers (members ++ [entry]) = insertSorted entry (sortedMembers members) := by
  rw [sortedMembers, List.foldl_append]
  rfl

theorem pairwise_sortedMembers (members : List (String × Json)) :
    (sortedMembers members).Pairwise (·.1 < ·.1) := by
  induction members using List.reverseRecOn with
  | nil => exact .nil
  | append_singleton members entry ih =>
    rw [sortedMembers_concat]
    exact pairwise_insertSorted entry ih

/-- The last member of each name is kept. -/
theorem mem_sortedMembers_iff {members : List (String × Json)} {name : String} {v : Json} :
    (name, v) ∈ sortedMembers members ↔ member? name (.object members) = some v := by
  induction members using List.reverseRecOn with
  | nil => simp [sortedMembers, member?]
  | append_singleton members entry ih =>
    rw [sortedMembers_concat, mem_insertSorted_iff (pairwise_sortedMembers members), ih]
    by_cases hname : entry.1 = name
    · simp [member?, hname, Prod.ext_iff, eq_comm]
    · have hfind :
          member? name (.object (members ++ [entry])) = member? name (.object members) := by
        simp [member?, hname]
      rw [hfind]
      grind

/-- The members of these names, whatever else there is. -/
theorem filter_sortedMembers {names : List String} (hnames : names.Pairwise (· < ·))
    (members : List (String × Json)) :
    ((sortedMembers members).filter fun entry => decide (entry.1 ∈ names)) =
      Json.pick names (member? · (.object members)) := by
  have hpick : (Json.pick names (member? · (.object members))).Pairwise (·.1 < ·.1) := by
    refine List.pairwise_filterMap.2 (hnames.imp fun hlt x hx y hy => ?_)
    obtain ⟨-, -, rfl⟩ := Option.map_eq_some_iff.1 hx
    obtain ⟨-, -, rfl⟩ := Option.map_eq_some_iff.1 hy
    exact hlt
  have hantisymm : Std.Antisymm fun x y : String × Json => x.1 < y.1 :=
    ⟨fun x y hxy hyx => absurd hxy hyx.not_gt⟩
  have hirrefl : Std.Irrefl fun x y : String × Json => x.1 < y.1 := ⟨fun x => lt_irrefl x.1⟩
  refine ((pairwise_sortedMembers members).filter _).eq_of_mem_iff hpick fun ⟨name, v⟩ => ?_
  rw [List.mem_filter, mem_sortedMembers_iff, Json.pick, List.mem_filterMap]
  constructor
  · rintro ⟨hv, hname⟩
    exact ⟨name, of_decide_eq_true hname, by rw [hv]; rfl⟩
  · rintro ⟨name', hname, hv⟩
    obtain ⟨v', hv', heq⟩ := Option.map_eq_some_iff.1 hv
    obtain ⟨rfl, rfl⟩ := Prod.mk.inj heq
    exact ⟨hv', decide_eq_true hname⟩

/-! ### Reading the fields -/

/-- The names of the fields of an event, in order. -/
def Kind.fields : Kind → List String
  | .created => ["amount", "description", "timestamp", "transaction_id", "user_id"]
  | .paid => ["timestamp", "transactions_paid", "user_id"]

theorem Kind.pairwise_fields (k : Kind) : k.fields.Pairwise (· < ·) := by
  cases k <;> decide

theorem Kind.eventType_notMem_fields (k : Kind) : "event_type" ∉ k.fields := by
  cases k <;> decide

theorem Kind.others_record (k : Kind) : k.record.others = .ignored := by
  cases k <;> rfl

theorem Kind.find?_record {k : Kind} {name : String} (h : name ∉ k.fields) :
    k.record.members.find? (fun m => m.name == name) = none := by
  cases k <;> simp [fields] at h <;>
    simp [record, createdRecord, paidRecord, userField, timeField, Json.Member.of, h, Ne.symm]

/-- The tag says which fields are read, and nothing else is looked at. -/
theorem ofJson_tagged {k : Kind} {members : List (String × Json)}
    (htag : member? "event_type" (.object members) = some (Json.text k.tag)) :
    ofJson (.object members) =
      k.record.ofMembers (Json.pick k.fields (member? · (.object members))) := by
  obtain ⟨before, after, hsplit⟩ := List.append_of_mem (mem_sortedMembers_iff.2 htag)
  have hsorted := pairwise_sortedMembers members
  rw [hsplit, List.pairwise_append] at hsorted
  obtain ⟨-, hafter, hbefore⟩ := hsorted
  have hread : ofJson (.object members) = k.record.ofMembers (before ++ after) := by
    rw [ofJson, hsplit]
    refine ofMembers_tagged k (fun m hm => ?_) fun m hm => ?_
    · exact (hbefore m hm _ List.mem_cons_self).ne
    · exact ((List.pairwise_cons.1 hafter).1 m hm).ne'
  have hpick : ((before ++ after).filter fun entry => decide (entry.1 ∈ k.fields)) =
      Json.pick k.fields (member? · (.object members)) := by
    rw [← filter_sortedMembers k.pairwise_fields, hsplit]
    simp [k.eventType_notMem_fields]
  rw [hread, Json.Record.ofMembers, Json.Record.ofMembers,
    Json.Record.foldlM_filter k.others_record fun _ => Kind.find?_record, hpick]

theorem ofMembers_pick_created (lookup : String → Option Json) :
    createdRecord.ofMembers (Json.pick Kind.created.fields lookup) = (do
      let amount ← Json.field? Amount.ofScalar (lookup "amount")
      let description ← Json.field? Json.Scalar.string (lookup "description")
      let time ← Json.field? Timestamp.ofScalar (lookup "timestamp")
      let transaction ← Json.field? Json.Scalar.int64 (lookup "transaction_id")
      let user ← Json.field? UserId.ofScalar (lookup "user_id")
      createdRecord.finish { transaction, user, amount, description, time }) := by
  have hstep {β : Type} {name : String} {get set decode} :=
    @Json.Record.finish_pick_cons Draft Event β createdRecord name get set decode
  refine (hstep rfl rfl (fun amount => { amount }) rfl (fun _ => rfl) _ _).trans
    (bind_congr fun amount => ?_)
  refine (hstep rfl rfl (fun description => { amount, description }) rfl (fun _ => rfl) _ _).trans
    (bind_congr fun description => ?_)
  refine (hstep rfl rfl (fun time => { amount, description, time }) rfl (fun _ => rfl) _ _).trans
    (bind_congr fun time => ?_)
  refine (hstep rfl rfl (fun transaction => { amount, description, time, transaction }) rfl
    (fun _ => rfl) _ _).trans (bind_congr fun transaction => ?_)
  exact hstep rfl rfl (fun user => { amount, description, time, transaction, user }) rfl
    (fun _ => rfl) [] lookup

theorem ofMembers_pick_paid (lookup : String → Option Json) :
    paidRecord.ofMembers (Json.pick Kind.paid.fields lookup) = (do
      let time ← Json.field? Timestamp.ofScalar (lookup "timestamp")
      let count ← Json.field? Json.Scalar.uint64 (lookup "transactions_paid")
      let user ← Json.field? UserId.ofScalar (lookup "user_id")
      paidRecord.finish { user, count, time }) := by
  have hstep {β : Type} {name : String} {get set decode} :=
    @Json.Record.finish_pick_cons Draft Event β paidRecord name get set decode
  refine (hstep rfl rfl (fun time => { time }) rfl (fun _ => rfl) _ _).trans
    (bind_congr fun time => ?_)
  refine (hstep rfl rfl (fun count => { time, count }) rfl (fun _ => rfl) _ _).trans
    (bind_congr fun count => ?_)
  exact hstep rfl rfl (fun user => { time, count, user }) rfl (fun _ => rfl) [] lookup

/-! ### What the fields state -/

end Event

theorem UserId.ofScalar_eq_ok_iff {s : Json.Scalar} {u : UserId} :
    ofScalar s = .ok u ↔ s.integer? = some u.value.toInt := by
  rw [← Json.Scalar.int64_eq_ok_iff, ofScalar, Json.bind_eq_ok_iff]
  constructor
  · rintro ⟨n, hn, h⟩
    by_cases hpos : 0 < n
    · simp only [of?, hpos, ↓reduceDIte] at h
      obtain rfl := Except.ok.inj h
      exact hn
    · simp [of?, hpos] at h
  · intro h
    refine ⟨u.value, h, ?_⟩
    simp only [of?, u.pos, ↓reduceDIte]
    rfl

theorem Amount.ofScalar_eq_ok_iff {s : Json.Scalar} {a : Amount} :
    ofScalar s = .ok a ↔ ∃ d, s.decimal = .ok d ∧ ofDecimal d = .ok a := by
  rw [ofScalar, Json.bind_eq_ok_iff]
  refine exists_congr fun d => and_congr_right fun _ => ?_
  cases ofDecimal d with
  | error e => constructor <;> intro h <;> cases h
  | ok a' =>
    show (Except.ok a' : Except Json.Fault Amount) = .ok a ↔ _
    rw [Except.ok.injEq, Except.ok.injEq]

theorem Timestamp.ofScalar_eq_ok_iff {s : Json.Scalar} {t : Timestamp} :
    ofScalar s = .ok t ↔ ∃ text, s = .text text ∧ read? text.toList = some t := by
  rw [ofScalar, Json.bind_eq_ok_iff]
  refine exists_congr fun text => and_congr Json.Scalar.string_eq_ok_iff ?_
  cases read? text.toList with
  | none => constructor <;> intro h <;> cases h
  | some t' =>
    show (Except.ok t' : Except Json.Fault Timestamp) = .ok t ↔ _
    rw [Except.ok.injEq, Option.some.injEq]

namespace Event

/-- An object says who the user is. -/
def StatesUser (v : Json) (u : UserId) : Prop :=
  ∃ s, member? "user_id" v = some (.scalar s) ∧ s.integer? = some u.value.toInt

/-- An object says what time it is. -/
def StatesTime (v : Json) (t : Timestamp) : Prop :=
  ∃ text, member? "timestamp" v = some (Json.text text) ∧ Timestamp.read? text.toList = some t

/-- An object states an event, field by field. -/
def States (v : Json) : Event → Prop
  | created transaction user amount description time =>
    (∃ s, member? "transaction_id" v = some (.scalar s) ∧ s.integer? = some transaction.toInt) ∧
    StatesUser v user ∧
    (∃ s d, member? "amount" v = some (.scalar s) ∧ s.decimal = .ok d ∧
      Amount.ofDecimal d = .ok amount) ∧
    member? "description" v = some (Json.text description) ∧ StatesTime v time
  | paid user count time =>
    StatesUser v user ∧ member? "transactions_paid" v = some (Json.natural count) ∧
    StatesTime v time

theorem field?_user_iff {v : Json} {u : UserId} :
    Json.field? UserId.ofScalar (member? "user_id" v) = .ok (some u) ↔ StatesUser v u := by
  simp only [Json.field?_eq_some_iff, UserId.ofScalar_eq_ok_iff, StatesUser]

theorem field?_time_iff {v : Json} {t : Timestamp} :
    Json.field? Timestamp.ofScalar (member? "timestamp" v) = .ok (some t) ↔ StatesTime v t := by
  simp only [Json.field?_eq_some_iff, Timestamp.ofScalar_eq_ok_iff, StatesTime, Json.text]
  constructor
  · rintro ⟨s, hmember, text, rfl, hread⟩
    exact ⟨text, hmember, hread⟩
  · rintro ⟨text, hmember, hread⟩
    exact ⟨.text text, hmember, text, rfl, hread⟩

theorem field?_text_iff {o : Option Json} {t : String} :
    Json.field? Json.Scalar.string o = .ok (some t) ↔ o = some (Json.text t) := by
  simp [Json.field?_eq_some_iff, Json.Scalar.string_eq_ok_iff, Json.text]

theorem field?_natural_iff {o : Option Json} {n : UInt64} :
    Json.field? Json.Scalar.uint64 o = .ok (some n) ↔ o = some (Json.natural n) := by
  simp [Json.field?_eq_some_iff, Json.Scalar.uint64_eq_ok_iff, Json.natural]

theorem field?_integer_iff {o : Option Json} {i : Int64} :
    Json.field? Json.Scalar.int64 o = .ok (some i) ↔
      ∃ s, o = some (.scalar s) ∧ s.integer? = some i.toInt := by
  simp only [Json.field?_eq_some_iff, Json.Scalar.int64_eq_ok_iff]

theorem field?_amount_iff {o : Option Json} {a : Amount} :
    Json.field? Amount.ofScalar o = .ok (some a) ↔
      ∃ s d, o = some (.scalar s) ∧ s.decimal = .ok d ∧ Amount.ofDecimal d = .ok a := by
  simp only [Json.field?_eq_some_iff, Amount.ofScalar_eq_ok_iff, exists_and_left]

theorem ofMembers_created_iff {v : Json} {e : Event} :
    createdRecord.ofMembers (Json.pick Kind.created.fields (member? · v)) = .ok e ↔
      e.kind = .created ∧ States v e := by
  rw [ofMembers_pick_created]
  simp only [Json.bind_eq_ok_iff, createdRecord, Json.required_eq_ok_iff]
  constructor
  · rintro ⟨_, hamount, _, hdescription, _, htime, _, hid, _, huser, id, rfl, user, rfl, amount,
      rfl, description, rfl, time, rfl, he⟩
    obtain rfl := Except.ok.inj he
    exact ⟨rfl, field?_integer_iff.1 hid, field?_user_iff.1 huser, field?_amount_iff.1 hamount,
      field?_text_iff.1 hdescription, field?_time_iff.1 htime⟩
  · rintro ⟨hkind, hstates⟩
    cases e with
    | paid user count time => cases hkind
    | created id user amount description time =>
      obtain ⟨hid, huser, hamount, hdescription, htime⟩ := hstates
      exact ⟨_, field?_amount_iff.2 hamount, _, field?_text_iff.2 hdescription,
        _, field?_time_iff.2 htime, _, field?_integer_iff.2 hid, _, field?_user_iff.2 huser,
        _, rfl, _, rfl, _, rfl, _, rfl, _, rfl, rfl⟩

theorem ofMembers_paid_iff {v : Json} {e : Event} :
    paidRecord.ofMembers (Json.pick Kind.paid.fields (member? · v)) = .ok e ↔
      e.kind = .paid ∧ States v e := by
  rw [ofMembers_pick_paid]
  simp only [Json.bind_eq_ok_iff, paidRecord, Json.required_eq_ok_iff]
  constructor
  · rintro ⟨_, htime, _, hcount, _, huser, user, rfl, count, rfl, time, rfl, he⟩
    obtain rfl := Except.ok.inj he
    exact ⟨rfl, field?_user_iff.1 huser, field?_natural_iff.1 hcount, field?_time_iff.1 htime⟩
  · rintro ⟨hkind, hstates⟩
    cases e with
    | created id user amount description time => cases hkind
    | paid user count time =>
      obtain ⟨huser, hcount, htime⟩ := hstates
      exact ⟨_, field?_time_iff.2 htime, _, field?_natural_iff.2 hcount,
        _, field?_user_iff.2 huser, _, rfl, _, rfl, _, rfl, rfl⟩

theorem ofMembers_record_iff {k : Kind} {v : Json} {e : Event} :
    k.record.ofMembers (Json.pick k.fields (member? · v)) = .ok e ↔ e.kind = k ∧ States v e := by
  cases k with
  | created => exact ofMembers_created_iff
  | paid => exact ofMembers_paid_iff

/-! ### Messages -/

/-- What a message holds, as JSON. -/
def contents (payload : ByteArray) : Except Json.Fault Json := do
  Json.parse (← Json.textOfBytes payload)

theorem decode_of_contents {payload : ByteArray} {v : Json} {tag : String}
    (hcontents : contents payload = .ok v) (htag : member? "event_type" v = some (Json.text tag)) :
    decode payload =
      if (Kind.ofTag? tag).isSome then (ofJson v).map .event else .ok (.unknown tag) := by
  have htag? : tag? v = some tag := by simp [tag?, htag, Json.text]
  obtain ⟨cs, hcs, hparse⟩ := Json.bind_eq_ok_iff.1 hcontents
  simp only [decode, hcs, hparse, bind, Except.bind, htag?]
  cases (Kind.ofTag? tag).isSome with
  | true => cases ofJson v <;> rfl
  | false => rfl

theorem ofTag?_eq_none {tag : String} (h : ∀ k : Kind, tag ≠ k.tag) : Kind.ofTag? tag = none := by
  simp [Kind.ofTag?, h]

theorem decode_of_tag {payload : ByteArray} {members : List (String × Json)} {k : Kind}
    (hobject : contents payload = .ok (.object members))
    (htag : member? "event_type" (.object members) = some (Json.text k.tag)) :
    decode payload =
      (k.record.ofMembers (Json.pick k.fields (member? · (.object members)))).map .event := by
  rw [decode_of_contents hobject htag, if_pos (isSome_ofTag? k), ofJson_tagged htag]

theorem contents_flat {members : List (String × Json.Scalar)} (h : Json.AllExact members) :
    contents (Json.flat members).toText.toUTF8 = .ok (Json.flat members) := by
  rw [contents, Json.toText, textOfBytes_toUTF8, String.toList_ofList]
  exact Json.parse_print_flat h

/-- A message that holds an object with a tag. A tag that is not known is given back. A known one
says which fields there must be: the message opens to an event exactly if the object states it, is
refused if it states none, and opens to the same as any other with the same tag and fields. The
times that may be stated are those of RFC 3339, and more. -/
theorem decode_object (payload : ByteArray) (members : List (String × Json)) (tag : String)
    (hobject : contents payload = .ok (.object members))
    (htag : member? "event_type" (.object members) = some (Json.text tag)) :
    ((∀ k : Kind, tag ≠ k.tag) → decode payload = .ok (.unknown tag)) ∧
    (∀ k : Kind, tag = k.tag →
      (∀ e, decode payload = .ok (.event e) ↔ e.kind = k ∧ States (.object members) e) ∧
      ((∀ e, e.kind = k → ¬ States (.object members) e) → ∃ f, decode payload = .error f) ∧
      ∀ payload' members', contents payload' = .ok (.object members') →
        (∀ name ∈ "event_type" :: k.fields,
          member? name (.object members') = member? name (.object members)) →
        decode payload' = decode payload) ∧
    ∀ cs, Timestamp.IsStandard cs → ∃ time, Timestamp.read? cs = some time := by
  refine ⟨fun hunknown => ?_, ?_, fun cs h => Option.isSome_iff_exists.1 (Timestamp.isSome_read? h)⟩
  · rw [decode_of_contents hobject htag, ofTag?_eq_none hunknown]
    rfl
  · rintro k rfl
    have hdecode := decode_of_tag hobject htag
    have hevent (e : Event) :
        decode payload = .ok (.event e) ↔ e.kind = k ∧ States (.object members) e := by
      rw [hdecode, ← ofMembers_record_iff]
      cases k.record.ofMembers (Json.pick k.fields (member? · (.object members))) <;>
        simp [Except.map]
    refine ⟨hevent, fun hnone => ?_, fun payload' members' hobject' hsame => ?_⟩
    · cases hread : k.record.ofMembers (Json.pick k.fields (member? · (.object members))) with
      | error f => exact ⟨f, by rw [hdecode, hread]; rfl⟩
      | ok e =>
        obtain ⟨hkind, hstates⟩ := ofMembers_record_iff.1 hread
        exact absurd hstates (hnone e hkind)
    · have htag' : member? "event_type" (.object members') = some (Json.text k.tag) :=
        (hsame _ List.mem_cons_self).trans htag
      have hpick : Json.pick k.fields (member? · (.object members')) =
          Json.pick k.fields (member? · (.object members)) := by
        refine List.filterMap_congr fun name hname => ?_
        exact congrArg (Option.map _) (hsame name (List.mem_cons_of_mem _ hname))
      rw [hdecode, decode_of_tag hobject' htag', hpick]

/-- A payment whose user is given twice, with a note that no field asks for: the later user counts,
and the note does not. -/
theorem decode_object_repeated :
    let members : List (String × Json.Scalar) := [("event_type", .text "transaction.paid"),
      ("user_id", .number (.natural 1)), ("note", .null), ("user_id", .number (.natural 2)),
      ("transactions_paid", .number (.natural 3)), ("timestamp", .text "2001-02-03T04:05:06Z")]
    ∃ time, Timestamp.read? "2001-02-03T04:05:06Z".toList = some time ∧
      decode (Json.flat members).toText.toUTF8 = .ok (.event (.paid ⟨2, by decide⟩ 3 time)) := by
  intro members
  have hexact : Json.AllExact members := by
    simp [members, Json.AllExact, Json.Scalar.IsExact]
  obtain ⟨time, htime⟩ : ∃ time, Timestamp.read? "2001-02-03T04:05:06Z".toList = some time :=
    Option.isSome_iff_exists.1 (by decide +kernel)
  have huser : StatesUser (Json.flat members) ⟨2, by decide⟩ := ⟨.number (.natural 2), rfl, rfl⟩
  have hstates : States (Json.flat members) (.paid ⟨2, by decide⟩ 3 time) :=
    ⟨huser, rfl, _, rfl, htime⟩
  exact ⟨time, htime,
    (((decode_object _ _ _ (contents_flat hexact) rfl).2.1 .paid rfl).1 _).2 ⟨rfl, hstates⟩⟩

/-- A time in fewer digits than RFC 3339 asks for is taken all the same. -/
theorem decode_unpadded_time :
    let members : List (String × Json.Scalar) := [("event_type", .text "transaction.paid"),
      ("user_id", .number (.natural 1)), ("transactions_paid", .number (.natural 2)),
      ("timestamp", .text "2001-2-3T4:5:6Z")]
    contents (Json.flat members).toText.toUTF8 = .ok (Json.flat members) ∧
      member? "timestamp" (Json.flat members) = some (Json.text "2001-2-3T4:5:6Z") ∧
      ¬ Timestamp.IsStandard "2001-2-3T4:5:6Z".toList ∧
      ∃ e, decode (Json.flat members).toText.toUTF8 = .ok (.event e) := by
  intro members
  have hcontents : contents (Json.flat members).toText.toUTF8 = .ok (Json.flat members) :=
    contents_flat (by simp [members, Json.AllExact, Json.Scalar.IsExact])
  obtain ⟨time, htime⟩ : ∃ time, Timestamp.read? "2001-2-3T4:5:6Z".toList = some time :=
    Option.isSome_iff_exists.1 (by decide +kernel)
  have huser : StatesUser (Json.flat members) ⟨1, by decide⟩ := ⟨.number (.natural 1), rfl, rfl⟩
  have hstates : States (Json.flat members) (.paid ⟨1, by decide⟩ 2 time) :=
    ⟨huser, rfl, _, rfl, htime⟩
  have hread := (ofMembers_record_iff (k := .paid)).2 ⟨rfl, hstates⟩
  refine ⟨hcontents, rfl, fun h => absurd h.length_le (by decide), .paid ⟨1, by decide⟩ 2 time, ?_⟩
  rw [decode_of_tag (k := .paid) hcontents rfl]
  exact congrArg (Except.map Envelope.event) hread

/-- A count of zero with a minus sign is refused, although it is a whole number in range. -/
theorem decode_negative_zero :
    let object := "\x7b\"transactions_paid\":-0,\"event_type\":\"transaction.paid\"," ++
      "\"user_id\":1,\"timestamp\":\"2001-02-03T04:05:06Z\"\x7d"
    let zero : Binary64 := ⟨true, 0, Binary64.minExponent⟩
    contents object.toUTF8 = .ok (Json.flat [("transactions_paid", .number (.real zero)),
      ("event_type", .text "transaction.paid"), ("user_id", .number (.natural 1)),
      ("timestamp", .text "2001-02-03T04:05:06Z")]) ∧
    decode object.toUTF8 = .error .mismatch := by
  intro object zero
  have htokens : Json.tokens object.toList =
      [.openObject, .text "transactions_paid", .colon, .number ⟨true, [0], [], none⟩, .comma,
        .text "event_type", .colon, .text "transaction.paid", .comma, .text "user_id", .colon,
        .number ⟨false, [1], [], none⟩, .comma, .text "timestamp", .colon,
        .text "2001-02-03T04:05:06Z", .closeObject] := by
    decide +kernel
  have hscalar : (Json.Token.number ⟨true, [0], [], none⟩).scalar = .ok (.number (.real zero)) := by
    have hvalue : Json.Numeral.value? ⟨true, [0], [], none⟩ = some (.real zero) := by
      decide +kernel
    rw [Json.Token.scalar, hvalue]
  -- The number is the first value, so that the rest is read by computation alone.
  have hread (rest : List Json.Token) : (Json.Position.value []).read (.full Json.maxDepth)
      (.openObject :: .text "transactions_paid" :: .colon ::
        .number ⟨true, [0], [], none⟩ :: rest) =
        (Json.Position.afterMember [("transactions_paid", .scalar (.number (.real zero)))] []).read
          (.full Json.maxDepth) rest := by
    show ((Json.Token.scalar (.number ⟨true, [0], [], none⟩)).bind fun v => .ok
      (Json.place (.scalar v) [.object [] "transactions_paid"])).bind
        (fun p => p.read (.full Json.maxDepth) rest) = _
    rw [hscalar]
    rfl
  have hcontents : contents object.toUTF8 = .ok (Json.flat
      [("transactions_paid", .number (.real zero)), ("event_type", .text "transaction.paid"),
        ("user_id", .number (.natural 1)), ("timestamp", .text "2001-02-03T04:05:06Z")]) := by
    rw [contents, textOfBytes_toUTF8]
    show Json.parse _ = _
    rw [Json.parse, htokens, hread]
    rfl
  refine ⟨hcontents, ?_⟩
  rw [decode_of_tag (k := .paid) hcontents rfl]
  rfl

end Event

end SpendingLedger
