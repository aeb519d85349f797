import SpendingLedger.Web.Problem
import SpendingLedger.Proofs.Event.RoundTrip

/-!
What responses show of transactions. A response can be of use to others than the user of a
transaction only as long as the transaction does not stand in it, neither as it is nor as a part.
-/

namespace SpendingLedger

/-! ### Parts of JSON values -/

/-- One JSON value is another, or stands somewhere in it. -/
inductive Json.Within : Json → Json → Prop
  | refl (v : Json) : Within v v
  | item {v w : Json} {items : List Json} (hw : w ∈ items) (h : Within v w) :
    Within v (.array items)
  | member {v w : Json} {key : String} {members : List (String × Json)}
      (hw : (key, w) ∈ members) (h : Within v w) : Within v (.object members)

/-- An object with no parts but scalars. -/
def Json.IsFlat : Json → Prop
  | .object members => ∀ e ∈ members, ∃ s, e.2 = .scalar s
  | _ => False

theorem UserId.toJson_inj {u v : UserId} (h : u.toJson = v.toJson) : u = v := by
  have hscalar : Json.Scalar.ofInt64 u.value = .ofInt64 v.value := Json.scalar.inj h
  have hread := u.ofScalar_ofInt64
  rw [hscalar, v.ofScalar_ofInt64] at hread
  exact (Except.ok.inj hread).symm

namespace Transaction

theorem isFlat_toJson (t : Transaction) : t.toJson.IsFlat := by
  intro e he
  simp only [List.mem_cons, List.not_mem_nil, or_false] at he
  rcases he with rfl | rfl | rfl | rfl | rfl | rfl <;> exact ⟨_, rfl⟩

theorem user_eq_of_toJson_eq {t t' : Transaction} (h : t.toJson = t'.toJson) :
    t.user = t'.user := by
  simp only [toJson, Json.object.injEq, List.cons.injEq, Prod.mk.injEq, true_and] at h
  exact UserId.toJson_inj h.2.1

/-- A transaction stands in a flat object only if it is that object. -/
theorem eq_of_within {t : Transaction} {v : Json} (hv : v.IsFlat) (h : t.toJson.Within v) :
    t.toJson = v := by
  cases h with
  | refl => rfl
  | item => exact hv.elim
  | member hw h =>
    obtain ⟨s, rfl⟩ := hv _ hw
    cases h

end Transaction

namespace Web

/-! ### Responses -/

/-- A JSON value stands in a body, as a part or as text. -/
def Body.Shows (v : Json) : Body → Prop
  | .json w => v.Within w
  | .noJson => False
  | .text s => v.print <:+: s.toList

/-- No transaction of a user stands in the response. -/
def Response.Omits (u : UserId) (r : Response) : Prop :=
  ∀ t : Transaction, t.user = u → ¬ r.body.Shows t.toJson

namespace Response

variable {u : UserId}

theorem omits_text (u : UserId) (status : Nat) {s : String} (hs : '\x7b' ∉ s.toList) :
    Omits u ⟨status, .text s⟩ := by
  intro t _ h
  refine hs (h.subset ?_)
  rw [Transaction.toJson, Json.print]
  exact List.mem_cons_self

theorem omits_bare (u : UserId) (status : Nat) : Omits u (bare status) :=
  omits_text u status (by decide)

theorem Omits.withoutBody {r : Response} (h : r.Omits u) : r.withoutBody.Omits u := by
  obtain ⟨status, v | _ | s⟩ := r
  · exact fun _ _ h => h
  · exact h
  · exact omits_text u status (by decide)

/-- A flat object that is no transaction. -/
theorem omits_flat (u : UserId) (status : Nat) {v : Json} (hv : v.IsFlat)
    (hne : ∀ t : Transaction, t.toJson ≠ v) : Omits u ⟨status, .json v⟩ :=
  fun t _ h => hne t (t.eq_of_within hv h)

theorem omits_transaction (status : Nat) {t : Transaction} (ht : t.user ≠ u) :
    Omits u ⟨status, .json t.toJson⟩ := by
  rintro t' rfl h
  exact ht (Transaction.user_eq_of_toJson_eq (t'.eq_of_within t.isFlat_toJson h)).symm

theorem omits_transactions (status : Nat) {ts : List Transaction} (hts : ∀ t ∈ ts, t.user ≠ u) :
    Omits u ⟨status, .json (.array (ts.map Transaction.toJson))⟩ := by
  intro t' ht' h
  cases h with
  | item hw h =>
    obtain ⟨t, ht, rfl⟩ := List.mem_map.1 hw
    exact omits_transaction status (hts t ht) t' ht' h

end Response

theorem Problem.omits_response (p : Problem) (u : UserId) : p.response.Omits u := by
  refine Response.omits_flat u p.status (fun e he => ?_) fun t h => ?_
  · simp only [List.cons_append, List.nil_append, List.mem_cons, List.mem_append,
      Option.mem_toList, Option.map_eq_some_iff] at he
    rcases he with rfl | rfl | ⟨d, -, rfl⟩ | he
    · exact ⟨_, rfl⟩
    · exact ⟨_, rfl⟩
    · exact ⟨_, rfl⟩
    · unfold sums at he
      split at he
      · simp only [List.mem_cons, List.not_mem_nil, or_false] at he
        rcases he with rfl | rfl <;> exact ⟨_, rfl⟩
      · exact absurd he List.not_mem_nil
  · simp [Transaction.toJson] at h

end Web

end SpendingLedger
