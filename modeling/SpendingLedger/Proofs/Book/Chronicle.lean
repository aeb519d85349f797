import SpendingLedger.Proofs.Book.Announced
import SpendingLedger.Proofs.Deployment.Store

/-!
A store with its past. Anybody may add rows, pay, list and ask for totals in any order, while the
store goes down and comes back. The past tells of rows: each as it was added, and paid if its user
has been paid since. What the book holds, and every answer the store ever gave, is what the past
tells.
-/

namespace SpendingLedger

namespace Chronicle

inductive Call where
  | insert (e : Entry) (cap : Decimal)
  | rowsOf (u : UserId)
  | total (u : UserId)
  | markPaid (u : UserId)
  | setDown (down : Bool)
  | setClock (now : Timestamp)

/-- What was asked, and the answer to it. -/
inductive Item where
  | insert (now : Timestamp) (e : Entry) (cap : Decimal) (answer : Except StoreFault Insertion)
  | rowsOf (u : UserId) (answer : Except StoreFault (List Transaction))
  | total (u : UserId) (answer : Except StoreFault Decimal)
  | markPaid (u : UserId) (answer : Except StoreFault UInt64)

end Chronicle

/-- A store, and all that it was asked, oldest first. -/
structure Chronicle where
  site : Deployment
  past : List Chronicle.Item := []

namespace Chronicle

/-- A store with an empty book. -/
def start (site : Deployment) : Chronicle := { site := { site with book := {} } }

def perform (c : Chronicle) : Call → Chronicle
  | .insert e cap =>
    let (answer, site) := (Deployment.insert e cap).run c.site
    ⟨site, c.past ++ [.insert c.site.clock e cap answer]⟩
  | .rowsOf u =>
    let (answer, site) := (Deployment.rowsOf u).run c.site
    ⟨site, c.past ++ [.rowsOf u answer]⟩
  | .total u =>
    let (answer, site) := (Deployment.total u).run c.site
    ⟨site, c.past ++ [.total u answer]⟩
  | .markPaid u =>
    let (answer, site) := (Deployment.markPaid u).run c.site
    ⟨site, c.past ++ [.markPaid u answer]⟩
  | .setDown down => { c with site := { c.site with storeDown := down } }
  | .setClock now => { c with site := { c.site with clock := now } }

def run (c : Chronicle) (calls : List Call) : Chronicle := calls.foldl perform c

/-! ### What the past tells -/

namespace Item

/-- The row that was added. -/
def row? : Item → Option Transaction
  | insert _ _ _ (.ok (.recorded t _)) => some t
  | _ => none

/-- Whether the rows of a user were paid. -/
def pays (u : UserId) : Item → Bool
  | markPaid v (.ok _) => v = u
  | _ => false

/-- How many rows of a user were paid, by the answer. -/
def paidCount (u : UserId) : Item → Nat
  | markPaid v (.ok n) => if v = u then n.toNat else 0
  | _ => 0

end Item

/-- A row after what came later. -/
def since (later : List Item) (t : Transaction) : Transaction :=
  { t with isPaid := t.isPaid || later.any (·.pays t.user) }

/-- The rows that a past tells of, oldest first: each as it was added, and paid if its user has been
paid since. -/
def told : List Item → List Transaction
  | [] => []
  | i :: later =>
    (i.row?.map fun t => { t with isPaid := later.any (·.pays t.user) }).toList ++ told later

/-- The rows of a user that a past tells of. -/
def toldOf (u : UserId) (past : List Item) : List Transaction := (told past).filter (·.user = u)

theorem told_append (past later : List Item) :
    told (past ++ later) = (told past).map (since later) ++ told later := by
  induction past with
  | nil => rfl
  | cons i rest ih =>
    rw [List.cons_append, told, told, ih, List.map_append, List.append_assoc]
    congr 1
    cases i.row? with
    | none => rfl
    | some t => simp [since, List.any_append]

theorem toldOf_append (u : UserId) (past later : List Item) :
    toldOf u (past ++ later) = (toldOf u past).map (since later) ++ toldOf u later := by
  rw [toldOf, told_append, List.filter_append, List.filter_map]
  rfl

theorem length_told_append (past later : List Item) :
    (told (past ++ later)).length = (told past).length + (told later).length := by
  rw [told_append, List.length_append, List.length_map]

/-- Rows are what they were after something that pays nobody. -/
theorem map_since_of_idle {i : Item} (hpays : ∀ u, i.pays u = false) (rows : List Transaction) :
    rows.map (since [i]) = rows := by
  refine List.map_id'' (fun t => ?_) rows
  rw [since, List.any_cons, hpays, List.any_nil, Bool.or_false, Bool.or_false]

/-- What neither adds nor pays changes nothing in what is told. -/
theorem told_snoc_of_idle (past : List Item) {i : Item} (hrow : i.row? = none)
    (hpays : ∀ u, i.pays u = false) : told (past ++ [i]) = told past := by
  rw [told_append, map_since_of_idle hpays, told, told, hrow]
  exact List.append_nil _

theorem told_snoc_insert (past : List Item) (now : Timestamp) (e : Entry) (cap : Decimal)
    {t : Transaction} (newTotal : Decimal) (ht : t.isPaid = false) :
    told (past ++ [.insert now e cap (.ok (.recorded t newTotal))]) = told past ++ [t] := by
  have hself : ({ t with isPaid := false } : Transaction) = t := by rw [← ht]
  rw [told_append, map_since_of_idle fun _ => rfl, told, told]
  simp [Item.row?, hself]

theorem told_snoc_markPaid (past : List Item) (u : UserId) (n : UInt64) :
    told (past ++ [.markPaid u (.ok n)]) = (told past).map
      fun t => if Book.IsUnpaidOf u t then { t with isPaid := true } else t := by
  rw [told_append, told, told]
  simp only [Item.row?, Option.map_none, Option.toList_none, List.append_nil]
  refine List.map_congr_left fun t _ => ?_
  obtain ⟨id, v, amount, description, isPaid, createdAt⟩ := t
  by_cases hv : v = u
  · cases isPaid <;> simp [since, Book.IsUnpaidOf, Item.pays, hv]
  · have hv' : ¬ u = v := fun h => hv h.symm
    simp [since, Book.IsUnpaidOf, Item.pays, hv, hv']

/-! ### What the store does -/

/-- What an answer has to be if these rows, oldest first, are on record. -/
def Item.Fits (rows : List Transaction) : Item → Prop
  | .insert now e _ (.ok (.recorded t _)) =>
    t = ⟨Int64.ofNat (rows.length + 1), e.user, e.amount, e.description, false, now⟩
  | .rowsOf u (.ok answer) => answer = (rows.filter (·.user = u)).reverse
  | .markPaid u (.ok n) => n = UInt64.ofNat (rows.countP (fun t => Book.IsUnpaidOf u t))
  | _ => True

/-- The book holds what the past tells, and every answer fits what was told before it. -/
structure Faithful (c : Chronicle) : Prop where
  rows_eq : c.site.book.rows = (told c.past).reverse
  lastId_eq : c.site.book.lastId = Int64.ofNat (told c.past).length
  ids_eq : (told c.past).map (·.id) = (List.range' 1 (told c.past).length).map Int64.ofNat
  fits : ∀ before i after, c.past = before ++ i :: after → i.Fits (told before)

theorem faithful_start (site : Deployment) : (start site).Faithful where
  rows_eq := rfl
  lastId_eq := rfl
  ids_eq := rfl
  fits before i after h := by simp [start] at h

variable {c : Chronicle}

/-- What is true of all that came before is true of what came last. -/
theorem Faithful.fits_snoc (h : c.Faithful) {i : Item} (hi : i.Fits (told c.past)) :
    ∀ before j after, c.past ++ [i] = before ++ j :: after → j.Fits (told before) := by
  intro before j after hsplit
  rcases List.eq_nil_or_concat after with rfl | ⟨after, k, rfl⟩
  · obtain ⟨rfl, hj⟩ := List.append_inj' hsplit rfl
    obtain rfl := (List.cons.inj hj).1
    exact hi
  · rw [List.concat_eq_append, ← List.cons_append, ← List.append_assoc] at hsplit
    exact h.fits before j after (List.append_inj' hsplit rfl).1

/-- An answer that comes with no change. -/
theorem Faithful.snoc_of_idle (h : c.Faithful) {i : Item} (hrow : i.row? = none)
    (hpays : ∀ u, i.pays u = false) (hi : i.Fits (told c.past)) :
    Faithful ⟨c.site, c.past ++ [i]⟩ where
  rows_eq := by rw [told_snoc_of_idle c.past hrow hpays, h.rows_eq]
  lastId_eq := by rw [told_snoc_of_idle c.past hrow hpays, h.lastId_eq]
  ids_eq := by rw [told_snoc_of_idle c.past hrow hpays, h.ids_eq]
  fits := h.fits_snoc hi

/-! #### Adding -/

theorem perform_insert (c : Chronicle) (e : Entry) (cap : Decimal) :
    c.perform (.insert e cap) =
      if c.site.storeDown then ⟨c.site, c.past ++ [.insert c.site.clock e cap (.error .unavailable)]⟩
      else ⟨{ c.site with book := (c.site.book.insert c.site.clock e cap).2 },
        c.past ++ [.insert c.site.clock e cap (.ok (c.site.book.insert c.site.clock e cap).1)]⟩ := by
  simp only [perform, Deployment.insert, Deployment.run_consult]
  cases c.site.storeDown <;> rfl

theorem Faithful.record (h : c.Faithful) (e : Entry) (cap newTotal : Decimal) :
    Faithful ⟨{ c.site with book := c.site.book.record c.site.clock e newTotal },
      c.past ++ [.insert c.site.clock e cap
        (.ok (.recorded (c.site.book.row c.site.clock e) newTotal))]⟩ := by
  have hid : c.site.book.lastId + 1 = Int64.ofNat ((told c.past).length + 1) := by
    rw [h.lastId_eq, Int64.ofNat_add]
    rfl
  refine ⟨?_, ?_, ?_, h.fits_snoc ?_⟩
  · rw [told_snoc_insert _ _ _ _ _ rfl, List.reverse_append, ← h.rows_eq]
    rfl
  · rw [told_snoc_insert _ _ _ _ _ rfl, List.length_append, List.length_singleton, ← hid]
    rfl
  · rw [told_snoc_insert _ _ _ _ _ rfl, List.map_append, h.ids_eq, List.length_append,
      List.length_singleton, List.range'_concat, List.map_append, Nat.one_mul, Nat.add_comm 1]
    exact congrArg _ (congrArg (· :: []) hid)
  · rw [Item.Fits, ← hid]
    rfl

theorem Faithful.insert (h : c.Faithful) (e : Entry) (cap : Decimal) :
    (c.perform (.insert e cap)).Faithful := by
  rw [perform_insert]
  split
  · exact h.snoc_of_idle rfl (fun _ => rfl) trivial
  · rcases c.site.book.insert_cases c.site.clock e cap with ⟨newTotal, -, heq⟩ | heq <;> rw [heq]
    · exact h.record e cap newTotal
    · exact h.snoc_of_idle rfl (fun _ => rfl) trivial

/-! #### Paying -/

theorem perform_markPaid (c : Chronicle) (u : UserId) :
    c.perform (.markPaid u) =
      if c.site.storeDown then ⟨c.site, c.past ++ [.markPaid u (.error .unavailable)]⟩
      else ⟨{ c.site with book := (c.site.book.markPaid u).2 },
        c.past ++ [.markPaid u (.ok (c.site.book.markPaid u).1)]⟩ := by
  simp only [perform, Deployment.markPaid, Deployment.run_consult]
  cases c.site.storeDown <;> rfl

theorem Faithful.markPaid (h : c.Faithful) (u : UserId) : (c.perform (.markPaid u)).Faithful := by
  rw [perform_markPaid]
  split
  · exact h.snoc_of_idle rfl (fun _ => rfl) trivial
  · refine ⟨?_, ?_, ?_, h.fits_snoc ?_⟩
    · rw [told_snoc_markPaid, ← List.map_reverse, ← h.rows_eq]
      rfl
    · rw [told_snoc_markPaid, List.length_map, ← h.lastId_eq]
      rfl
    · rw [told_snoc_markPaid, List.length_map, ← h.ids_eq, List.map_map]
      refine List.map_congr_left fun t _ => ?_
      rw [Function.comp_apply]
      split <;> rfl
    · rw [Item.Fits, Book.markPaid, h.rows_eq, List.countP_reverse]

/-! #### Asking -/

theorem perform_rowsOf (c : Chronicle) (u : UserId) :
    c.perform (.rowsOf u) = ⟨c.site, c.past ++ [.rowsOf u
      (if c.site.storeDown then .error .unavailable else .ok (c.site.book.rowsOf u))]⟩ := by
  simp only [perform, Deployment.rowsOf, Deployment.run_consult]
  cases c.site.storeDown <;> rfl

theorem perform_total (c : Chronicle) (u : UserId) :
    c.perform (.total u) = ⟨c.site, c.past ++ [.total u
      (if c.site.storeDown then .error .unavailable else .ok (c.site.book.total u))]⟩ := by
  simp only [perform, Deployment.total, Deployment.run_consult]
  cases c.site.storeDown <;> rfl

/-- The rows of a user, newest first. -/
theorem Faithful.rowsOf_eq (h : c.Faithful) (u : UserId) :
    c.site.book.rowsOf u = (toldOf u c.past).reverse := by
  rw [Book.rowsOf, h.rows_eq, List.filter_reverse, toldOf]

theorem Faithful.perform (h : c.Faithful) (call : Call) : (c.perform call).Faithful := by
  cases call with
  | insert e cap => exact h.insert e cap
  | markPaid u => exact h.markPaid u
  | rowsOf u =>
    rw [perform_rowsOf]
    refine h.snoc_of_idle rfl (fun _ => rfl) ?_
    split
    · trivial
    · exact h.rowsOf_eq u
  | total u =>
    rw [perform_total]
    exact h.snoc_of_idle rfl (fun _ => rfl) trivial
  | setDown down => exact ⟨h.rows_eq, h.lastId_eq, h.ids_eq, h.fits⟩
  | setClock now => exact ⟨h.rows_eq, h.lastId_eq, h.ids_eq, h.fits⟩

theorem Faithful.run (h : c.Faithful) (calls : List Call) : (c.run calls).Faithful := by
  induction calls generalizing c with
  | nil => exact h
  | cons call rest ih => exact ih (h.perform call)

end Chronicle

end SpendingLedger
