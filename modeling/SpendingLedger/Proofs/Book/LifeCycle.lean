import SpendingLedger.Proofs.Book.Chronicle
import Mathlib.Data.List.Induction

/-!
The life of a row. It is added unpaid under the next number, is listed from then on as it was added,
and turns paid with the first payment of its user after that. Payments count the rows they turn,
each row once, so all counts together are the rows that are paid; and no payment changes a total.
-/

namespace SpendingLedger.Chronicle

variable {c : Chronicle}

/-! ### Numbers -/

/-- Rows are numbered in the order in which they were added. -/
theorem Faithful.pairwise_id (h : c.Faithful) (hlt : (told c.past).length < 2 ^ 63) :
    (told c.past).Pairwise (fun older newer => older.id < newer.id) := by
  have hmap : ((told c.past).map (·.id)).Pairwise (· < ·) := by
    rw [h.ids_eq, List.pairwise_map]
    refine List.Pairwise.imp_of_mem (fun {a b} ha hb hab => ?_) (List.pairwise_lt_range' 1)
    rw [List.mem_range'_1] at ha hb
    rw [Int64.lt_iff_toInt_lt, Int64.toInt_ofNat_of_lt (by omega), Int64.toInt_ofNat_of_lt (by omega)]
    exact Int.ofNat_lt.2 hab
  exact List.pairwise_map.1 hmap

/-! ### Payments -/

/-- Either an answer comes with no change, or a row was added, or rows were paid. -/
theorem Item.cases (i : Item) :
    (i.row? = none ∧ ∀ u, i.pays u = false ∧ i.paidCount u = 0) ∨
      (∃ now e cap t newTotal, i = .insert now e cap (.ok (.recorded t newTotal))) ∨
      ∃ u n, i = .markPaid u (.ok n) := by
  cases i with
  | insert now e cap answer =>
    rcases answer with f | ⟨t, newTotal⟩ | total
    · exact .inl ⟨rfl, fun _ => ⟨rfl, rfl⟩⟩
    · exact .inr (.inl ⟨now, e, cap, t, newTotal, rfl⟩)
    · exact .inl ⟨rfl, fun _ => ⟨rfl, rfl⟩⟩
  | rowsOf | total => exact .inl ⟨rfl, fun _ => ⟨rfl, rfl⟩⟩
  | markPaid u answer =>
    cases answer with
    | error f => exact .inl ⟨rfl, fun _ => ⟨rfl, rfl⟩⟩
    | ok n => exact .inr (.inr ⟨u, n, rfl⟩)

/-- All counts for a user together are the rows of the user that are paid. -/
theorem sum_paidCount (u : UserId) {past : List Item}
    (hfits : ∀ before i after, past = before ++ i :: after → i.Fits (told before))
    (hlt : (told past).length < 2 ^ 64) :
    (past.map (·.paidCount u)).sum = (toldOf u past).countP (·.isPaid) := by
  induction past using List.reverseRecOn with
  | nil => rfl
  | append_singleton past i ih =>
    have hfits' : ∀ before j after, past = before ++ j :: after → j.Fits (told before) := by
      rintro before j after rfl
      exact hfits before j (after ++ [i]) (by simp)
    have hlt' : (told past).length < 2 ^ 64 := by
      have := length_told_append past [i]
      omega
    have hi : i.Fits (told past) := hfits past i [] rfl
    rw [List.map_append, List.sum_append, ih hfits' hlt', List.map_singleton, List.sum_singleton]
    rcases i.cases with ⟨hrow, hidle⟩ | ⟨now, e, cap, t, newTotal, rfl⟩ | ⟨v, n, rfl⟩
    · rw [(hidle u).2, toldOf, toldOf, told_snoc_of_idle past hrow fun v => (hidle v).1]
      rfl
    · have ht : t.isPaid = false := by rw [show t = _ from hi]
      rw [toldOf, toldOf, told_snoc_insert _ _ _ _ _ ht, List.countP_filter, List.countP_filter,
        List.countP_append, List.countP_singleton, ht, Bool.false_and]
      rfl
    · have hn : n.toNat = (told past).countP (fun t => Book.IsUnpaidOf v t) := by
        rw [show n = _ from hi, UInt64.toNat_ofNat']
        exact Nat.mod_eq_of_lt (Nat.lt_of_le_of_lt List.countP_le_length hlt')
      rw [toldOf, toldOf, told_snoc_markPaid, List.countP_filter, List.countP_filter,
        Book.countP_isPaid_turned (fun w => w = u), ← hn]
      simp [Item.paidCount]

/-! ### Runs -/

theorem exists_past_perform (c : Chronicle) (call : Call) :
    ∃ items, (c.perform call).past = c.past ++ items := by
  cases call with
  | setDown | setClock => exact ⟨[], (List.append_nil _).symm⟩
  | _ => exact ⟨[_], rfl⟩

theorem exists_past_run (c : Chronicle) (calls : List Call) :
    ∃ items, (c.run calls).past = c.past ++ items := by
  induction calls generalizing c with
  | nil => exact ⟨[], (List.append_nil _).symm⟩
  | cons call rest ih =>
    obtain ⟨first, hfirst⟩ := c.exists_past_perform call
    obtain ⟨items, hitems⟩ := ih (c.perform call)
    exact ⟨first ++ items, by rw [← List.append_assoc, ← hfirst]; exact hitems⟩

/-- What has become of every row, and what every answer said of it. -/
structure LifeCycle (c : Chronicle) : Prop where
  /-- A store that is up lists the rows of a user, the newest first. -/
  run_rowsOf : ∀ u, c.site.storeDown = false →
    (Deployment.rowsOf u).run c.site = (.ok (toldOf u c.past).reverse, c.site)
  listed : ∀ before after u rows, c.past = before ++ .rowsOf u (.ok rows) :: after →
    rows = (toldOf u before).reverse
  pairwise_id : ∀ u, (toldOf u c.past).reverse.Pairwise (fun newer older => older.id < newer.id)
  added : ∀ before after now e cap t newTotal,
    c.past = before ++ .insert now e cap (.ok (.recorded t newTotal)) :: after →
      t = ⟨Int64.ofNat ((told before).length + 1), e.user, e.amount, e.description, false, now⟩
  /-- Whatever happens, rows are only added, and those there are change in nothing but that they
  turn paid with the next payment of their user. -/
  kept : ∀ later, ∃ items, (c.run later).past = c.past ++ items ∧
    ∀ u, (c.run later).site.book.rowsOf u =
      (toldOf u items).reverse ++ (c.site.book.rowsOf u).map (since items)
  run_markPaid : ∀ u, c.site.storeDown = false → ((Deployment.markPaid u).run c.site).1 =
    .ok (UInt64.ofNat ((toldOf u c.past).countP (fun t => !t.isPaid)))
  paid : ∀ before after u n, c.past = before ++ .markPaid u (.ok n) :: after →
    n.toNat = (toldOf u before).countP (fun t => !t.isPaid)
  sum_paidCount : ∀ u,
    (c.past.map (·.paidCount u)).sum = (c.site.book.rowsOf u).countP (·.isPaid)
  total_markPaid : ∀ u v, ((Deployment.total v).run (c.perform (.markPaid u)).site).1 =
    ((Deployment.total v).run c.site).1

theorem Faithful.lifeCycle (h : c.Faithful) (hlt : (told c.past).length < 2 ^ 63) :
    c.LifeCycle where
  run_rowsOf u hup := by
    rw [Deployment.rowsOf, Deployment.run_consult, hup]
    simp only [Bool.false_eq_true, ↓reduceIte, h.rowsOf_eq]
  listed before after u rows hsplit := h.fits before _ after hsplit
  pairwise_id u := List.pairwise_reverse.2 ((h.pairwise_id hlt).filter _)
  added before after now e cap t newTotal hsplit := h.fits before _ after hsplit
  kept later := by
    obtain ⟨items, hitems⟩ := c.exists_past_run later
    refine ⟨items, hitems, fun u => ?_⟩
    rw [(h.run later).rowsOf_eq, hitems, toldOf_append, List.reverse_append, ← List.map_reverse,
      h.rowsOf_eq]
  run_markPaid u hup := by
    rw [Deployment.markPaid, Deployment.run_consult, hup]
    simp only [Bool.false_eq_true, ↓reduceIte]
    rw [Book.markPaid, Book.countP_isUnpaidOf, ← Book.rowsOf, h.rowsOf_eq, List.countP_reverse]
  paid before after u n hsplit := by
    have hn : n = UInt64.ofNat ((told before).countP (fun t => Book.IsUnpaidOf u t)) :=
      h.fits before _ after hsplit
    have hle : (told before).length ≤ (told c.past).length := by
      rw [hsplit, length_told_append]
      exact Nat.le_add_right ..
    rw [hn, Book.countP_isUnpaidOf, UInt64.toNat_ofNat', ← toldOf]
    refine Nat.mod_eq_of_lt ?_
    have : (toldOf u before).countP (fun t => !t.isPaid) ≤ (told before).length :=
      Nat.le_trans List.countP_le_length (List.length_filter_le ..)
    omega
  sum_paidCount u := by
    rw [Chronicle.sum_paidCount u h.fits (by omega), h.rowsOf_eq, List.countP_reverse]
  total_markPaid u v := by
    rw [perform_markPaid]
    split
    · rfl
    · rw [Deployment.total, Deployment.run_consult, Deployment.run_consult]
      cases c.site.storeDown <;> rfl

/-- As long as fewer than `2^63` rows were added, every row lives so. -/
theorem run_lifeCycle (site : Deployment) (calls : List Call)
    (hlt : (told ((start site).run calls).past).length < 2 ^ 63) :
    ((start site).run calls).LifeCycle :=
  ((faithful_start site).run calls).lifeCycle hlt

/-- Two users, a row that no longer fits, and a row added after the payment. -/
theorem run_lifeCycle_again :
    let entry (u : UserId) (n : Nat) (h : 0 < n ∧ n ≤ 999999999999) : Entry := ⟨u, ⟨n, h.1, h.2⟩, ""⟩
    let first : UserId := ⟨1, by decide⟩
    let calls : List Call := [.insert (entry first 60000 (by decide)) defaultCap,
      .insert (entry ⟨2, by decide⟩ 100 (by decide)) defaultCap,
      .insert (entry first 50000 (by decide)) defaultCap, .markPaid first,
      .insert (entry first 40000 (by decide)) defaultCap, .setDown true, .markPaid first,
      .setDown false, .rowsOf first]
    let c := (start (Deployment.fresh "transactions" 8)).run calls
    (told c.past).length < 2 ^ 63 ∧ c.LifeCycle ∧
      (toldOf first c.past).map (fun t => (t.id, t.isPaid)) = [(1, true), (3, false)] := by
  intro entry first calls c
  have hlength : (told c.past).length < 2 ^ 63 := by decide
  exact ⟨hlength, run_lifeCycle _ calls hlength, by decide⟩

end SpendingLedger.Chronicle
