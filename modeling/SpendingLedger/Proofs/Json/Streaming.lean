import SpendingLedger.Json.Record
import SpendingLedger.Proofs.Json.RoundTrip

/-!
Records straight from a text. A record goes over the text of a flat object once, member by member;
what it makes of it, faults included, is what it makes of the members when they are given to it as
values.
-/

namespace SpendingLedger.Json.Record

variable {σ α : Type} (r : Record σ α)

/-- The value of a member that the record does not name is passed over or kept, as the record
wants it. -/
theorem step_otherValue {v : Scalar} (hv : v.IsExact) (name : String) (s : σ) :
    r.step (.otherValue (.value []) name s) v.token =
      .ok (.afterMember (r.addMember s name (.scalar v))) := by
  cases hothers : r.others with
  | ignored =>
    have hstart : startValue .skip [] v.token = .ok (.done (.scalar .null)) := by
      cases v with
      | null | bool | text => rfl
      | number n =>
        cases n with
        | natural | negative => rfl
        | real => exact absurd hv id
    have hstep : r.step (.otherValue (.value []) name s) v.token =
        (startValue .skip [] v.token).bind fun p => .ok (r.otherMember name s p) := by
      simp only [step, otherRules, hothers]
      rfl
    rw [hstep, hstart]
    simp only [Except.bind, otherMember, addMember, hothers]
  | kept add addItem =>
    have hstep : r.step (.otherValue (.value []) name s) v.token =
        (startValue (.full (maxDepth - 1)) [] v.token).bind fun p =>
          .ok (r.otherMember name s p) := by
      simp only [step, otherRules, hothers]
      rfl
    rw [hstep, startValue_token hv]
    rfl

/-- One member is read as if it were given as a value. -/
theorem read_member {v : Scalar} (hv : v.IsExact) (s : σ) (name : String) (rest : List Token) :
    r.read (.key s) (.text name :: .colon :: v.token :: rest) =
      r.putMember s (name, .scalar v) >>= fun s' => r.read (.afterMember s') rest := by
  have hkey : r.read (.key s) (.text name :: .colon :: v.token :: rest) =
      r.freshMember? name s >>= fun m =>
        r.read (.colon m name s) (.colon :: v.token :: rest) := by
    show (r.freshMember? name s >>= fun m => .ok (Position.colon m name s)) >>=
      (fun p => r.read p (.colon :: v.token :: rest)) = _
    cases r.freshMember? name s <;> rfl
  rw [hkey, putMember]
  cases r.freshMember? name s with
  | error f => rfl
  | ok m =>
    cases m with
    | none =>
      show r.step (.otherValue (.value []) name s) v.token >>= (fun p => r.read p rest) = _
      rw [step_otherValue r hv]
      rfl
    | some m =>
      show (v.token.scalar >>= fun v => m.put s v >>= fun s' => .ok (.afterMember s')) >>=
        (fun p => r.read p rest) = _
      rw [Scalar.scalar_token hv]
      show (m.put s v >>= fun s' => .ok (.afterMember s')) >>= (fun p => r.read p rest) =
        m.put s v >>= fun s' => r.read (.afterMember s') rest
      cases m.put s v <;> rfl

/-- The members that are left are read one after the other. -/
theorem read_memberTokens {members : List (String × Scalar)} (h : AllExact members)
    (hne : members ≠ []) (s : σ) (rest : List Token) :
    r.read (.key s) (memberTokens members ++ .closeObject :: rest) =
      (members.map fun m => (m.1, Json.scalar m.2)).foldlM r.putMember s >>= fun s' =>
        .ok (s', rest) := by
  induction members generalizing s with
  | nil => exact absurd rfl hne
  | cons m members ih =>
    obtain ⟨name, v⟩ := m
    have hv : v.IsExact := h (name, v) List.mem_cons_self
    have hmembers : AllExact members := fun m hm => h m (List.mem_cons_of_mem _ hm)
    rw [List.map_cons, List.foldlM_cons, bind_assoc]
    cases members with
    | nil =>
      simp only [memberTokens, List.cons_append, List.nil_append, r.read_member hv]
      refine bind_congr fun s' => ?_
      cases rest <;> rfl
    | cons m' members =>
      simp only [memberTokens, List.cons_append, r.read_member hv]
      exact bind_congr fun s' => ih hmembers (List.cons_ne_nil _ _) s'

/-- A record that is read from the text of a flat object is the record with its members. -/
theorem parse_print_flat {members : List (String × Scalar)} (h : AllExact members) :
    r.parse (flat members).print =
      r.ofMembers (members.map fun m => (m.1, Json.scalar m.2)) := by
  have hread : r.read (.firstKey r.start) (memberTokens members ++ [.closeObject]) =
      (members.map fun m => (m.1, Json.scalar m.2)).foldlM r.putMember r.start >>= fun s =>
        .ok (s, []) := by
    cases members with
    | nil => rfl
    | cons m members =>
      rw [← r.read_memberTokens h (List.cons_ne_nil _ _)]
      cases members <;> rfl
  have hobject : r.ofTokens (.openObject :: (memberTokens members ++ [.closeObject])) =
      r.read (.firstKey r.start) (memberTokens members ++ [.closeObject]) >>= fun read =>
        r.finish read.1 >>= fun x => .ok (x, read.2) := rfl
  rw [parse, tokens_print_flat h, hobject, hread, ofMembers]
  cases (members.map fun m => (m.1, Json.scalar m.2)).foldlM r.putMember r.start with
  | error f => rfl
  | ok s =>
    show (r.finish s >>= fun x => .ok (x, [])) >>= complete = r.finish s
    cases r.finish s <;> rfl

end SpendingLedger.Json.Record
