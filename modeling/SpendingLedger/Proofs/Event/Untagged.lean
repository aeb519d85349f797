import SpendingLedger.Proofs.Broker.Resettlement
import SpendingLedger.Proofs.Deployment.Processing
import SpendingLedger.Proofs.Event.Grammar

/-!
Messages without a tag. They are handed to the reader of events all the same. It refuses what has no
parts, and objects, which it looks through for the tag; but from an array it takes the first item
for the tag, and the others for the fields in the order of their declaration.
-/

namespace SpendingLedger

namespace Json.Record

variable {σ α β : Type} {r : Record σ α}

/-- The first of the items that are left: it is decoded and stored. -/
theorem finish_putItems_cons {name : String} {get : σ → Option β} {set : σ → β → σ}
    {decode : Scalar → Except Fault β} {s : σ} (update : Option β → σ)
    (hsome : ∀ x, update (some x) = set s x) (left : List (Member σ)) (v : Json)
    (items : List Json) :
    r.putItems s (.of name get set decode :: left) (v :: items) >>= r.finish =
      field? decode (some v) >>= fun o => r.putItems (update o) left items >>= r.finish := by
  cases v with
  | scalar v =>
    show (do return set s (← decode v)) >>= (r.putItems · left items) >>= r.finish =
      (decode v).map some >>= _
    cases decode v with
    | error f => rfl
    | ok x =>
      show r.putItems (set s x) left items >>= r.finish =
        r.putItems (update (some x)) left items >>= r.finish
      rw [hsome]
  | array | object => rfl

/-- A record that takes no item too many, and leaves out none, takes as many as it has members. -/
theorem length_of_putItems {left : List (Member σ)} {items : List Json} {s s' : σ}
    (hothers : r.others = .ignored) (hleft : ∀ m ∈ left, m.optional = false)
    (h : r.putItems s left items = .ok s') : items.length = left.length := by
  induction left generalizing items s with
  | nil =>
    cases items with
    | nil => rfl
    | cons v items =>
      rw [putItems, hothers] at h
      · contradiction
      · exact nofun
  | cons m left ih =>
    cases items with
    | nil =>
      have hm : m.optional = false := hleft m List.mem_cons_self
      simp [putItems, hm] at h
    | cons v items =>
      rw [putItems, bind_eq_ok_iff] at h
      obtain ⟨s₁, -, hrest⟩ := h
      exact congrArg (· + 1) (ih (fun m hm => hleft m (List.mem_cons_of_mem _ hm)) hrest)

end Json.Record

namespace Event

/-! ### Arrays -/

/-- The names of the fields of an event, in the order of their declaration. -/
def Kind.declared : Kind → List String
  | .created => ["transaction_id", "user_id", "amount", "description", "timestamp"]
  | .paid => ["user_id", "transactions_paid", "timestamp"]

/-- An array lists an event: its first item is the tag, and the others state the event if each is
given the name of its field. -/
def Lists (items : List Json) (e : Event) : Prop :=
  ∃ fields, items = Json.text e.kind.tag :: fields ∧ fields.length = e.kind.declared.length ∧
    States (.object (e.kind.declared.zip fields)) e

theorem Kind.name_members (k : Kind) : k.record.members.map (·.name) = k.declared := by
  cases k <;> rfl

theorem Kind.optional_members (k : Kind) : ∀ m ∈ k.record.members, m.optional = false := by
  cases k <;> simp [record, createdRecord, paidRecord, userField, timeField, Json.Member.of]

theorem ofItems_created (id user amount description time : Json) :
    createdRecord.ofItems [id, user, amount, description, time] = (do
      let transaction ← Json.field? Json.Scalar.int64 (some id)
      let user ← Json.field? UserId.ofScalar (some user)
      let amount ← Json.field? Amount.ofScalar (some amount)
      let description ← Json.field? Json.Scalar.string (some description)
      let time ← Json.field? Timestamp.ofScalar (some time)
      createdRecord.finish { transaction, user, amount, description, time }) := by
  have hstep {β : Type} {name : String} {get set decode} :=
    @Json.Record.finish_putItems_cons Draft Event β createdRecord name get set decode
  refine (hstep (fun transaction => { transaction }) (fun _ => rfl) _ _ _).trans
    (bind_congr fun transaction => ?_)
  refine (hstep (fun user => { transaction, user }) (fun _ => rfl) _ _ _).trans
    (bind_congr fun user => ?_)
  refine (hstep (fun amount => { transaction, user, amount }) (fun _ => rfl) _ _ _).trans
    (bind_congr fun amount => ?_)
  refine (hstep (fun description => { transaction, user, amount, description }) (fun _ => rfl)
    _ _ _).trans (bind_congr fun description => ?_)
  exact hstep (fun time => { transaction, user, amount, description, time }) (fun _ => rfl) _ _ _

theorem ofItems_paid (user count time : Json) :
    paidRecord.ofItems [user, count, time] = (do
      let user ← Json.field? UserId.ofScalar (some user)
      let count ← Json.field? Json.Scalar.uint64 (some count)
      let time ← Json.field? Timestamp.ofScalar (some time)
      paidRecord.finish { user, count, time }) := by
  have hstep {β : Type} {name : String} {get set decode} :=
    @Json.Record.finish_putItems_cons Draft Event β paidRecord name get set decode
  refine (hstep (fun user => { user }) (fun _ => rfl) _ _ _).trans (bind_congr fun user => ?_)
  refine (hstep (fun count => { user, count }) (fun _ => rfl) _ _ _).trans
    (bind_congr fun count => ?_)
  exact hstep (fun time => { user, count, time }) (fun _ => rfl) _ _ _

/-- Fields make an event in the order of their declaration exactly if they do by their names. -/
theorem ofItems_iff_ofMembers {k : Kind} {fields : List Json} {e : Event}
    (hlength : fields.length = k.declared.length) :
    k.record.ofItems fields = .ok e ↔
      k.record.ofMembers (Json.pick k.fields (member? · (.object (k.declared.zip fields)))) =
        .ok e := by
  -- the same values are decoded, only in another order, which matters for the faults alone
  cases k with
  | created =>
    obtain ⟨id, user, amount, description, time, rfl⟩ :
        ∃ id user amount description time, fields = [id, user, amount, description, time] :=
      match fields, hlength with
      | [id, user, amount, description, time], _ => ⟨id, user, amount, description, time, rfl⟩
    rw [Kind.record, ofItems_created, ofMembers_pick_created]
    simp only [Json.bind_eq_ok_iff]
    constructor
    · rintro ⟨_, hid, _, huser, _, hamount, _, hdescription, _, htime, he⟩
      exact ⟨_, hamount, _, hdescription, _, htime, _, hid, _, huser, he⟩
    · rintro ⟨_, hamount, _, hdescription, _, htime, _, hid, _, huser, he⟩
      exact ⟨_, hid, _, huser, _, hamount, _, hdescription, _, htime, he⟩
  | paid =>
    obtain ⟨user, count, time, rfl⟩ : ∃ user count time, fields = [user, count, time] :=
      List.length_eq_three.1 hlength
    rw [Kind.record, ofItems_paid, ofMembers_pick_paid]
    simp only [Json.bind_eq_ok_iff]
    constructor
    · rintro ⟨_, huser, _, hcount, _, htime, he⟩
      exact ⟨_, htime, _, hcount, _, huser, he⟩
    · rintro ⟨_, htime, _, hcount, _, huser, he⟩
      exact ⟨_, huser, _, hcount, _, htime, he⟩

theorem ofItems_record_iff {k : Kind} {fields : List Json} {e : Event} :
    k.record.ofItems fields = .ok e ↔ e.kind = k ∧ fields.length = k.declared.length ∧
      States (.object (k.declared.zip fields)) e := by
  constructor
  · intro h
    have hlength : fields.length = k.declared.length := by
      obtain ⟨s, hs, -⟩ := Json.bind_eq_ok_iff.1 h
      rw [Json.Record.length_of_putItems k.others_record k.optional_members hs, ← k.name_members,
        List.length_map]
    obtain ⟨hkind, hstates⟩ := ofMembers_record_iff.1 ((ofItems_iff_ofMembers hlength).1 h)
    exact ⟨hkind, hlength, hstates⟩
  · rintro ⟨hkind, hlength, hstates⟩
    exact (ofItems_iff_ofMembers hlength).2 (ofMembers_record_iff.2 ⟨hkind, hstates⟩)

theorem Kind.ofTag?_eq_some_iff {tag : String} {k : Kind} : ofTag? tag = some k ↔ tag = k.tag := by
  constructor
  · intro h
    by_contra hne
    have hnone : ∀ k' : Kind, tag ≠ k'.tag := by
      rintro k' rfl
      cases k' <;> cases h <;> exact hne rfl
    rw [ofTag?_eq_none hnone] at h
    contradiction
  · rintro rfl
    cases k <;> rfl

theorem tagOfScalar_eq_ok_iff {s : Json.Scalar} {k : Kind} :
    tagOfScalar s = .ok k ↔ s = .text k.tag := by
  rw [tagOfScalar, Json.bind_eq_ok_iff]
  constructor
  · rintro ⟨tag, htag, h⟩
    obtain rfl := Json.Scalar.string_eq_ok_iff.1 htag
    split at h
    · next k' hk =>
      obtain rfl := Except.ok.inj h
      rw [Kind.ofTag?_eq_some_iff.1 hk]
    · contradiction
  · rintro rfl
    refine ⟨k.tag, rfl, ?_⟩
    rw [Kind.ofTag?_eq_some_iff.2 rfl]
    rfl

theorem foldl_items (items : List Json) (s : Opened) :
    items.foldl (fun s v => { s with items := s.items ++ [v] }) s =
      { s with items := s.items ++ items } := by
  induction items generalizing s with
  | nil => rw [List.append_nil]; rfl
  | cons v items ih => rw [List.foldl_cons, ih, List.append_assoc, List.singleton_append]

/-- The first item of an array is taken for the tag. -/
theorem ofItems_array_cons (s : Json.Scalar) (fields : List Json) :
    arrayRecord.ofItems (.scalar s :: fields) = (do (← tagOfScalar s).record.ofItems fields) := by
  show (do return { kind := some (← tagOfScalar s) }) >>= (arrayRecord.putItems · [] fields) >>=
    arrayRecord.finish = _
  cases tagOfScalar s with
  | error f => rfl
  | ok k =>
    have hfields : arrayRecord.putItems { kind := some k } [] fields =
        .ok { kind := some k, items := fields } := by
      cases fields with
      | nil => rfl
      | cons v fields => exact congrArg Except.ok (foldl_items (v :: fields) { kind := some k })
    show arrayRecord.putItems { kind := some k } [] fields >>= arrayRecord.finish = _
    rw [hfields]
    rfl

theorem ofJson_array_iff {items : List Json} {e : Event} :
    ofJson (.array items) = .ok e ↔ Lists items e := by
  rw [ofJson]
  constructor
  · intro h
    rcases items with _ | ⟨⟨s⟩ | _ | _, fields⟩
    · contradiction
    · rw [ofItems_array_cons, Json.bind_eq_ok_iff] at h
      obtain ⟨k, htag, hread⟩ := h
      obtain rfl := tagOfScalar_eq_ok_iff.1 htag
      obtain ⟨rfl, hlength, hstates⟩ := ofItems_record_iff.1 hread
      exact ⟨fields, rfl, hlength, hstates⟩
    · contradiction
    · contradiction
  · rintro ⟨fields, rfl, hlength, hstates⟩
    rw [Json.text, ofItems_array_cons, tagOfScalar_eq_ok_iff.2 rfl]
    exact ofItems_record_iff.2 ⟨rfl, hlength, hstates⟩

/-! ### Objects -/

theorem ofJson_of_member?_eq_none {members : List (String × Json)}
    (h : member? "event_type" (.object members) = none) :
    ofJson (.object members) = .error (.missing "event_type") := by
  have hnames : ∀ m ∈ sortedMembers members, m.1 ≠ "event_type" := by
    rintro ⟨name, v⟩ hm rfl
    rw [mem_sortedMembers_iff.1 hm] at h
    contradiction
  rw [ofJson, Json.Record.ofMembers, foldlM_kept hnames]
  rfl

theorem ofJson_of_member?_eq_some {members : List (String × Json)} {v : Json}
    (h : member? "event_type" (.object members) = some v) (hv : ∀ tag, v ≠ Json.text tag) :
    ofJson (.object members) = .error .mismatch := by
  obtain ⟨before, after, hsplit⟩ := List.append_of_mem (mem_sortedMembers_iff.2 h)
  have hsorted := pairwise_sortedMembers members
  rw [hsplit, List.pairwise_append] at hsorted
  have hbefore : ∀ m ∈ before, m.1 ≠ "event_type" := fun m hm =>
    (hsorted.2.2 m hm _ List.mem_cons_self).ne
  -- what comes before is kept, so reading stops at the tag
  have hput : objectRecord.putMember { members := before } ("event_type", v) =
      .error .mismatch := by
    rcases v with (_ | _ | _ | tag) | _ | _
    case scalar.text => exact absurd rfl (hv tag)
    all_goals rfl
  have hread : (sortedMembers members).foldlM objectRecord.putMember {} = .error .mismatch := by
    rw [hsplit, List.foldlM_append, foldlM_kept hbefore]
    show (("event_type", v) :: after).foldlM objectRecord.putMember { members := before } = _
    rw [List.foldlM_cons, hput]
    rfl
  show (do objectRecord.finish (← (sortedMembers members).foldlM objectRecord.putMember {})) = _
  rw [hread]
  rfl

/-- Only what has a tag, or is an array, can be an event. -/
theorem exists_items_of_ofJson {v : Json} {e : Event} (htag : tag? v = none)
    (h : ofJson v = .ok e) : ∃ items, v = .array items := by
  cases v with
  | scalar s => contradiction
  | array items => exact ⟨items, rfl⟩
  | object members =>
    cases hmember : member? "event_type" (.object members) with
    | none =>
      rw [ofJson_of_member?_eq_none hmember] at h
      contradiction
    | some v =>
      have hv : ∀ tag, v ≠ Json.text tag := by
        rintro tag rfl
        simp [tag?, hmember, Json.text] at htag
      rw [ofJson_of_member?_eq_some hmember hv] at h
      contradiction

/-! ### Messages -/

variable {payload : ByteArray} {v : Json}

theorem decode_of_tag?_eq_none (hcontents : contents payload = .ok v) (htag : tag? v = none) :
    decode payload = (ofJson v).map .event := by
  obtain ⟨cs, hcs, hparse⟩ := Json.bind_eq_ok_iff.1 hcontents
  simp only [decode, hcs, hparse, bind, Except.bind, htag]
  cases ofJson v <;> rfl

theorem decode_eq_event_iff (hcontents : contents payload = .ok v) (htag : tag? v = none)
    (e : Event) :
    decode payload = .ok (.event e) ↔ ∃ items, v = .array items ∧ Lists items e := by
  have hdecode : decode payload = .ok (.event e) ↔ ofJson v = .ok e := by
    rw [decode_of_tag?_eq_none hcontents htag]
    cases ofJson v <;> simp [Except.map]
  rw [hdecode]
  constructor
  · intro h
    obtain ⟨items, rfl⟩ := exists_items_of_ofJson htag h
    exact ⟨items, rfl, ofJson_array_iff.1 h⟩
  · rintro ⟨items, rfl, hlists⟩
    exact ofJson_array_iff.2 hlists

/-- A message that holds a value without a tag. It opens to an event only if the value is an array
that lists one. If it does not, the message is refused, an object without a tag because the tag is
missing; the statistics stay as they are, and the message is given up. -/
theorem decode_untagged (payload : ByteArray) (v : Json) (hcontents : contents payload = .ok v)
    (htag : tag? v = none) :
    (∀ e, decode payload = .ok (.event e) ↔ ∃ items, v = .array items ∧ Lists items e) ∧
    (∀ members, v = .object members → member? "event_type" v = none →
      decode payload = .error (.missing "event_type")) ∧
    ((∀ items e, v = .array items → ¬ Lists items e) → ∃ fault, decode payload = .error fault ∧
      ∀ (s : Deployment) (d : Delivery), d.payload = payload → s.handler.verdicts = none →
        let how : Settlement := .setAside s!"undecodable envelope: {fault.summary}"
        ((Deployment.process d).run s).2.handler = s.handler ∧
        ∀ b, s.settleFaults = 0 → s.broker.settle d how = (.ok (), b) →
          ∃ setAside notices, (Deployment.process d).run s =
            (.ok how, { s with broker := b, setAside, notices })) := by
  refine ⟨decode_eq_event_iff hcontents htag, ?_, fun hnone => ?_⟩
  · rintro members rfl hmember
    rw [decode_of_tag?_eq_none hcontents htag, ofJson_of_member?_eq_none hmember]
    rfl
  · obtain ⟨fault, hdecode⟩ : ∃ fault, decode payload = .error fault := by
      rw [decode_of_tag?_eq_none hcontents htag]
      cases hread : ofJson v with
      | error fault => exact ⟨fault, rfl⟩
      | ok e =>
        obtain ⟨items, rfl⟩ := exists_items_of_ofJson htag hread
        exact absurd (ofJson_array_iff.1 hread) (hnone items e rfl)
    refine ⟨fault, hdecode, ?_⟩
    rintro s d rfl hverdicts
    exact Deployment.process_undecodable hdecode hverdicts

/-- An object without a tag is given up although its message may be tried for ever. -/
theorem decode_untagged_object :
    let payload := (Json.flat [("user_id", .number (.natural 1))]).toText.toUTF8
    let d : Delivery := ⟨1, "transactions", "7", 0, payload, 1, default⟩
    let s : Deployment := {
      channel := "transactions", cap := .zero, policy := .unbounded, budget := default,
      clock := default
      broker := ((History.new 1).run [.publish default "transactions" "7" payload,
        .receive "transactions"]).broker }
    decode payload = .error (.missing "event_type") ∧
      ((Deployment.process d).run s).1 =
        .ok (.setAside "undecodable envelope: missing field `event_type`") ∧
      ((Deployment.process d).run s).2.handler = s.handler := by
  intro payload d s
  have hcontents : contents payload = .ok (Json.flat [("user_id", .number (.natural 1))]) :=
    contents_flat (by simp [Json.AllExact, Json.Scalar.IsExact])
  obtain ⟨-, hmissing, hrefused⟩ := decode_untagged payload _ hcontents rfl
  have hdecode : decode payload = .error (.missing "event_type") := hmissing _ rfl rfl
  obtain ⟨fault, hfault, hprocess⟩ := hrefused fun _ _ heq => Json.noConfusion heq
  obtain rfl : .missing "event_type" = fault := Except.error.inj (hdecode.symm.trans hfault)
  obtain ⟨hhandler, hgivenUp⟩ := hprocess s d rfl rfl
  have hsettle (reason : String) : (s.broker.settle d (.setAside reason)).1 = .ok () := by
    simp only [s, History.run, List.foldl_cons, List.foldl_nil, History.perform_publish_one]
    rfl
  obtain ⟨setAside, notices, hrun⟩ := hgivenUp _ rfl (Prod.ext (hsettle _) rfl)
  exact ⟨hdecode, congrArg Prod.fst hrun, hhandler⟩

/-- An array without a tag under any name is taken for a payment, and counted. -/
theorem decode_untagged_array :
    let payload := "[\"transaction.paid\",4,1,\"2001-02-03T04:05:06Z\"]".toUTF8
    let v : Json := .array [Json.text "transaction.paid", Json.natural 4, Json.natural 1,
      Json.text "2001-02-03T04:05:06Z"]
    contents payload = .ok v ∧ tag? v = none ∧
      ∃ time, decode payload = .ok (.event (.paid ⟨4, by decide⟩ 1 time)) := by
  intro payload v
  have htokens : Json.tokens "[\"transaction.paid\",4,1,\"2001-02-03T04:05:06Z\"]".toList =
      [.openArray, .text "transaction.paid", .comma, .number ⟨false, [4], [], none⟩, .comma,
        .number ⟨false, [1], [], none⟩, .comma, .text "2001-02-03T04:05:06Z", .closeArray] := by
    decide +kernel
  have hcontents : contents payload = .ok v := by
    rw [contents, textOfBytes_toUTF8]
    show Json.parse _ = _
    rw [Json.parse, htokens]
    rfl
  obtain ⟨time, htime⟩ : ∃ time, Timestamp.read? "2001-02-03T04:05:06Z".toList = some time :=
    Option.isSome_iff_exists.1 (by decide +kernel)
  refine ⟨hcontents, rfl, time, (decode_eq_event_iff hcontents rfl _).2 ⟨_, rfl, _, rfl, rfl, ?_⟩⟩
  exact ⟨⟨.number (.natural 4), rfl, rfl⟩, rfl, _, rfl, htime⟩

end Event

end SpendingLedger
