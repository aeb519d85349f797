import SpendingLedger.Json.Record

/-!
What a record sees of named values. One that skips other members goes by what stands under the names
of its own: it reads them one after the other, and those that are not there it leaves open.
-/

namespace SpendingLedger.Json

/-! ### Scalars -/

/-- The whole number that a scalar is. -/
def Scalar.integer? : Scalar → Option Int
  | .number (.natural n) => some n.toNat
  | .number (.negative i) => some i.toInt
  | _ => none

theorem Scalar.int64_eq_ok_iff {s : Scalar} {i : Int64} :
    s.int64 = .ok i ↔ s.integer? = some i.toInt := by
  rcases s with _ | b | (n | j | x) | t
  · simp [int64, integer?]
  · simp [int64, integer?]
  · simp only [int64, integer?, Option.some.injEq]
    split
    · next hlt =>
      have hback : (Int64.ofNat n.toNat).toInt = n.toNat := by
        rw [Int64.toInt_ofNat_of_lt hlt]
      rw [Except.ok.injEq, ← Int64.toInt_inj, hback]
    · next hge =>
      have hbound := i.toInt_lt
      exact iff_of_false (by simp) (by omega)
  · simp [int64, integer?, Int64.toInt_inj]
  · simp [int64, integer?]
  · simp [int64, integer?]

theorem Scalar.uint64_eq_ok_iff {s : Scalar} {n : UInt64} :
    s.uint64 = .ok n ↔ s = .number (.natural n) := by
  rcases s with _ | b | (m | j | x) | t <;> simp [uint64]

theorem Scalar.string_eq_ok_iff {s : Scalar} {t : String} : s.string = .ok t ↔ s = .text t := by
  cases s <;> simp [string]

/-! ### Fields -/

/-- The values that stand under these names, with the names. -/
def pick (names : List String) (lookup : String → Option Json) : List (String × Json) :=
  names.filterMap fun name => (lookup name).map (name, ·)

/-- Decodes a value if it is there. -/
def field? {β : Type} (decode : Scalar → Except Fault β) : Option Json → Except Fault (Option β)
  | none => .ok none
  | some (.scalar s) => (decode s).map some
  | some _ => .error .mismatch

theorem bind_eq_ok_iff {ε α β : Type} {x : Except ε α} {f : α → Except ε β} {b : β} :
    x >>= f = .ok b ↔ ∃ a, x = .ok a ∧ f a = .ok b := by
  cases x with
  | error e => exact ⟨nofun, fun ⟨_, h, _⟩ => nomatch h⟩
  | ok a => exact ⟨fun h => ⟨a, rfl, h⟩, fun ⟨_, h, hf⟩ => Except.ok.inj h ▸ hf⟩

theorem bind_eq_error_iff {ε α β : Type} {x : Except ε α} {f : α → Except ε β} {r : ε} :
    x >>= f = .error r ↔ x = .error r ∨ ∃ a, x = .ok a ∧ f a = .error r := by
  cases x with
  | error r' =>
    constructor
    · exact fun h => .inl (congrArg Except.error (Except.error.inj h))
    · rintro (h | ⟨_, ha, -⟩)
      · exact congrArg Except.error (Except.error.inj h)
      · contradiction
  | ok a =>
    constructor
    · exact fun h => .inr ⟨a, rfl, h⟩
    · rintro (h | ⟨_, ha, hf⟩)
      · contradiction
      · exact Except.ok.inj ha ▸ hf

theorem field?_eq_some_iff {β : Type} {decode : Scalar → Except Fault β} {o : Option Json} {x : β} :
    field? decode o = .ok (some x) ↔ ∃ s, o = some (.scalar s) ∧ decode s = .ok x := by
  rcases o with _ | ⟨s⟩ | items | members
  · exact ⟨nofun, fun ⟨_, h, _⟩ => nomatch h⟩
  · constructor
    · intro h
      cases hs : decode s with
      | error f => simp [field?, hs, Except.map] at h
      | ok y => exact ⟨s, rfl, by simpa [field?, hs, Except.map] using h⟩
    · rintro ⟨s', h, hs'⟩
      obtain rfl : s = s' := by simpa using h
      simp [field?, hs', Except.map]
  · exact ⟨nofun, fun ⟨_, h, _⟩ => nomatch h⟩
  · exact ⟨nofun, fun ⟨_, h, _⟩ => nomatch h⟩

theorem required_eq_ok_iff {β : Type} {name : String} {o : Option β} {x : β} :
    required name o = .ok x ↔ o = some x := by
  cases o <;> simp [required]

namespace Record

variable {σ α β : Type} {r : Record σ α}

/-- A record that skips other members reads only what stands under the names of its own. -/
theorem foldlM_filter {names : List String} (hothers : r.others = .ignored)
    (hnames : ∀ name, name ∉ names → r.members.find? (fun m => m.name == name) = none)
    (entries : List (String × Json)) (s : σ) :
    entries.foldlM r.putMember s =
      (entries.filter fun entry => decide (entry.1 ∈ names)).foldlM r.putMember s := by
  induction entries generalizing s with
  | nil => rfl
  | cons entry rest ih =>
    by_cases hmem : entry.1 ∈ names
    · rw [List.filter_cons_of_pos (by simpa using hmem), List.foldlM_cons, List.foldlM_cons]
      exact bind_congr fun s' => ih s'
    · have hskip : r.putMember s entry = .ok s := by
        simp only [putMember, freshMember?, hnames entry.1 hmem, addMember, hothers]
        rfl
      rw [List.filter_cons_of_neg (by simpa using hmem), List.foldlM_cons, hskip]
      exact ih s

/-- The first of the names: its value is decoded and stored, if it is there. -/
theorem finish_pick_cons {name : String} {get : σ → Option β} {set : σ → β → σ}
    {decode : Scalar → Except Fault β}
    (hfind : r.members.find? (fun m => m.name == name) = some (.of name get set decode)) {s : σ}
    (hopen : get s = none) (update : Option β → σ) (hnone : update none = s)
    (hsome : ∀ x, update (some x) = set s x) (names : List String)
    (lookup : String → Option Json) :
    (pick (name :: names) lookup).foldlM r.putMember s >>= r.finish =
      field? decode (lookup name) >>= fun o =>
        (pick names lookup).foldlM r.putMember (update o) >>= r.finish := by
  cases hlookup : lookup name with
  | none =>
    have hpick : pick (name :: names) lookup = pick names lookup := by simp [pick, hlookup]
    rw [hpick, ← hnone]
    rfl
  | some v =>
    have hpick : pick (name :: names) lookup = (name, v) :: pick names lookup := by
      simp [pick, hlookup]
    have hset : (Member.of name get set decode).isSet s = false := by
      show (get s).isSome = false
      rw [hopen]
      rfl
    have hput : r.putMember s (name, v) = putValue (.of name get set decode) s v := by
      simp only [putMember, freshMember?, hfind, hset]
      rfl
    rw [hpick, List.foldlM_cons, hput]
    cases v with
    | scalar v =>
      show (do return set s (← decode v)) >>= _ >>= r.finish = (decode v).map some >>= _
      cases decode v with
      | error f => rfl
      | ok x =>
        show (pick names lookup).foldlM r.putMember (set s x) >>= r.finish =
          (pick names lookup).foldlM r.putMember (update (some x)) >>= r.finish
        rw [hsome]
    | array items => rfl
    | object members => rfl

end Record

end SpendingLedger.Json
