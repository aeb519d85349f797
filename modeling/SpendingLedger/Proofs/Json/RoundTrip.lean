import SpendingLedger.Json.Reader
import SpendingLedger.Proofs.Json.Tokens

/-!
Flat objects: objects whose members are scalars. A flat object is read back from its text.
-/

namespace SpendingLedger.Json

def flat (members : List (String × Scalar)) : Json :=
  .object (members.map fun m => (m.1, .scalar m.2))

def memberTokens : List (String × Scalar) → List Token
  | [] => []
  | [(k, v)] => [.text k, .colon, v.token]
  | (k, v) :: rest => .text k :: .colon :: v.token :: .comma :: memberTokens rest

/-- Whether the members are written without loss. -/
def AllExact (members : List (String × Scalar)) : Prop := ∀ m ∈ members, m.2.IsExact

theorem endsNumber_cons {c : Char} (hdigit : c.isDigit = false) (hpoint : c ≠ '.') (he : c ≠ 'e')
    (hE : c ≠ 'E') (rest : List Char) : EndsNumber (c :: rest) := by
  rintro d ⟨⟩
  exact ⟨hdigit, hpoint, he, hE⟩

theorem tokens_colon (rest : List Char) : tokens (':' :: rest) = .colon :: tokens rest := by
  rw [tokens]
  rfl

theorem tokens_comma (rest : List Char) : tokens (',' :: rest) = .comma :: tokens rest := by
  rw [tokens]
  rfl

theorem tokens_openObject (rest : List Char) :
    tokens ('\x7b' :: rest) = .openObject :: tokens rest := by
  rw [tokens]
  rfl

theorem tokens_closeObject (rest : List Char) :
    tokens ('\x7d' :: rest) = .closeObject :: tokens rest := by
  rw [tokens]
  rfl

theorem tokens_printMembers {members : List (String × Scalar)} (h : AllExact members)
    (rest : List Char) :
    tokens (printMembers (members.map fun m => (m.1, .scalar m.2)) ++ '\x7d' :: rest) =
      memberTokens members ++ .closeObject :: tokens rest := by
  induction members with
  | nil => exact tokens_closeObject rest
  | cons m members ih =>
    obtain ⟨k, v⟩ := m
    have hv : v.IsExact := h (k, v) List.mem_cons_self
    have hmembers : AllExact members := fun m hm => h m (List.mem_cons_of_mem _ hm)
    cases members with
    | nil =>
      simp only [List.map_cons, List.map_nil, printMembers, print, memberTokens, List.append_assoc,
        List.cons_append, tokens_quoted, tokens_colon]
      rw [Scalar.tokens_print hv (endsNumber_cons rfl (by decide) (by decide) (by decide) _),
        tokens_closeObject]
      rfl
    | cons m' members =>
      have hrest := ih hmembers
      simp only [List.map_cons, printMembers, print, memberTokens, List.append_assoc,
        List.cons_append, tokens_quoted, tokens_colon] at hrest ⊢
      rw [Scalar.tokens_print hv (endsNumber_cons rfl (by decide) (by decide) (by decide) _),
        tokens_comma, hrest]

theorem startValue_token {v : Scalar} (h : v.IsExact) (depth : Nat) (outer : List Frame) :
    startValue (.full depth) outer v.token = .ok (place (.scalar v) outer) := by
  have hscalar := Scalar.scalar_token h
  have hplain : startValue (.full depth) outer v.token =
      (v.token.scalar).bind fun s => .ok (place (.scalar s) outer) := by
    cases v with
    | null | bool | text => rfl
    | number n => cases n <;> rfl
  rw [hplain, hscalar]
  rfl

theorem read_done (r : Rules) (v : Json) (rest : List Token) :
    (Position.done v).read r rest = .ok (v, rest) := by
  cases rest <;> rfl

theorem read_member {v : Scalar} (h : v.IsExact) (depth : Nat) (done : List (String × Json))
    (k : String) (rest : List Token) :
    (Position.key done []).read (.full depth) (.text k :: .colon :: v.token :: rest) =
      (Position.afterMember ((k, .scalar v) :: done) []).read (.full depth) rest := by
  show ((startValue (.full depth) [.object done k] v.token).bind
    fun p => p.read (.full depth) rest) = _
  rw [startValue_token h]
  rfl

/-- The members that are left are read in their order. -/
theorem read_memberTokens {members : List (String × Scalar)} (h : AllExact members)
    (hne : members ≠ []) (depth : Nat) (done : List (String × Json)) (rest : List Token) :
    (Position.key done []).read (.full depth) (memberTokens members ++ .closeObject :: rest) =
      .ok (.object (done.reverse ++ members.map fun m => (m.1, .scalar m.2)), rest) := by
  induction members generalizing done with
  | nil => exact absurd rfl hne
  | cons m members ih =>
    obtain ⟨k, v⟩ := m
    have hv : v.IsExact := h (k, v) List.mem_cons_self
    have hmembers : AllExact members := fun m hm => h m (List.mem_cons_of_mem _ hm)
    cases members with
    | nil =>
      simp only [memberTokens, List.cons_append, List.nil_append, read_member hv, List.map_cons,
        List.map_nil]
      rw [← List.reverse_cons]
      exact read_done ..
    | cons m' members =>
      have hrest := ih hmembers (List.cons_ne_nil _ _) ((k, .scalar v) :: done)
      rw [List.reverse_cons, List.append_assoc, List.singleton_append] at hrest
      simp only [memberTokens, List.cons_append, read_member hv]
      exact hrest

theorem tokens_print_flat {members : List (String × Scalar)} (h : AllExact members) :
    tokens (flat members).print = .openObject :: (memberTokens members ++ [.closeObject]) := by
  rw [flat, print, List.cons_append, tokens_openObject, tokens_printMembers h, tokens]

/-- A flat object is read back from its text. -/
theorem parse_print_flat {members : List (String × Scalar)} (h : AllExact members) :
    parse (flat members).print = .ok (flat members) := by
  have hread : (Position.firstKey []).read (.full maxDepth)
      (memberTokens members ++ [.closeObject]) = .ok (flat members, []) := by
    cases members with
    | nil => rfl
    | cons m members =>
      have hkey := read_memberTokens h (List.cons_ne_nil _ _) maxDepth [] []
      rw [List.reverse_nil, List.nil_append] at hkey
      rw [flat, ← hkey]
      cases members <;> rfl
  have hstart : (Position.value []).read (.full maxDepth)
      (.openObject :: (memberTokens members ++ [.closeObject])) =
      (Position.firstKey []).read (.full maxDepth) (memberTokens members ++ [.closeObject]) := rfl
  rw [parse, tokens_print_flat h, hstart, hread]
  rfl

end SpendingLedger.Json
