import SpendingLedger.Proofs.Broker.History
import Mathlib.Data.List.Nodup
import Mathlib.Data.List.Perm.Basic

/-!
Nothing is lost and nothing is made up. Whatever is asked of a broker, a message that was published
is there once until it is acknowledged, on the lane of its key, and is not there afterwards.
-/

open scoped List

namespace SpendingLedger

/-! ### What has come about -/

namespace Occurrence

/-- The letter that is published, if one is. -/
def published : Occurrence → List Letter
  | .publish _ x => [x]
  | _ => []

def publishedOn (name : String) : Occurrence → List Letter
  | .publish name' x => if name' = name then [x] else []
  | _ => []

/-- The letter that is acknowledged. -/
def acknowledged : Occurrence → List Letter
  | .settle _ x .acknowledge => [x]
  | _ => []

def acknowledgedOn (name : String) : Occurrence → List Letter
  | .settle d x .acknowledge => if d.channel = name then [x] else []
  | _ => []

/-- The letter that is given up on a channel. -/
def setAsideFrom (name : String) : Occurrence → List Letter
  | .settle d x (.setAside _) => if d.channel = name then [x] else []
  | _ => []

/-- The letter that comes to a channel because it is given up on another. -/
def setAsideInto (name : String) : Occurrence → List Letter
  | .settle d x (.setAside _) => if setAsideChannel d.channel = name then [x] else []
  | _ => []

end Occurrence

/-- Whether an operation takes a number, if it can. -/
def Operation.takesNumber : Operation → Bool
  | .publish .. | .reserve => true
  | _ => false

namespace History

def published (h : History) : List Letter := h.past.flatMap (·.published)

def publishedOn (h : History) (name : String) : List Letter := h.past.flatMap (·.publishedOn name)

def acknowledged (h : History) : List Letter := h.past.flatMap (·.acknowledged)

def acknowledgedOn (h : History) (name : String) : List Letter :=
  h.past.flatMap (·.acknowledgedOn name)

def setAsideFrom (h : History) (name : String) : List Letter :=
  h.past.flatMap (·.setAsideFrom name)

def setAsideInto (h : History) (name : String) : List Letter :=
  h.past.flatMap (·.setAsideInto name)

/-- The number of messages that were published or are halfway there. -/
def numbers (h : History) : Nat := h.published.length + h.reserved.length

/-! ### Letters -/

/-- The letters of a broker are those its past leaves there. -/
structure Tallied (h : History) : Prop where
  letters : (h.acknowledged ++ h.broker.letters).Perm h.published
  lettersOn : ∀ name,
    (h.acknowledgedOn name ++ (h.setAsideFrom name ++ h.broker.lettersOn name)).Perm
      (h.setAsideInto name ++ h.publishedOn name)

theorem tallied_new (lanes : UInt32) : (new lanes).Tallied where
  letters := .refl _
  lettersOn name := by
    have hnil : (new lanes).broker.lettersOn name = [] := Channel.letters_fresh _
    rw [hnil]
    rfl

variable {h : History}

/-- An occurrence keeps the tally if it brings as many letters as it takes. -/
theorem Tallied.snoc (ht : h.Tallied) {b : Broker} {reserved : List Int64} {o : Occurrence}
    (hletters : (o.acknowledged ++ b.letters).Perm (o.published ++ h.broker.letters))
    (hon : ∀ name, (o.acknowledgedOn name ++ (o.setAsideFrom name ++ b.lettersOn name)).Perm
      (o.setAsideInto name ++ (o.publishedOn name ++ h.broker.lettersOn name))) :
    Tallied ⟨b, reserved, h.past ++ [o]⟩ where
  letters := by
    rw [List.perm_iff_count]
    intro x
    have h₁ := ht.letters.count_eq x
    have h₂ := hletters.count_eq x
    simp only [acknowledged, published, List.flatMap_append, List.flatMap_singleton,
      List.count_append] at h₁ h₂ ⊢
    omega
  lettersOn name := by
    rw [List.perm_iff_count]
    intro x
    have h₁ := (ht.lettersOn name).count_eq x
    have h₂ := (hon name).count_eq x
    simp only [acknowledgedOn, setAsideFrom, setAsideInto, publishedOn, List.flatMap_append,
      List.flatMap_singleton, List.count_append] at h₁ h₂ ⊢
    omega

theorem Tallied.settle (ht : h.Tallied) (hs : h.broker.Shaped) {d : Delivery}
    (hi : d.lane.toNat < (h.broker.channel d.channel).lanes.length) {m : Message}
    {queue : List Message} (hlane : h.broker.laneAt d.channel d.lane.toNat = ⟨queue, some m⟩)
    (cursor : Nat) (s : Settlement) :
    Tallied { h with
      broker := h.broker.settled d m cursor s, past := h.past ++ [.settle d m.letter s] } := by
  obtain ⟨hletters, hon⟩ := Broker.perm_release hi hlane cursor
  cases s with
  | acknowledge => exact ht.snoc hletters hon
  | requeue =>
    obtain ⟨hletters, hon⟩ := Broker.perm_changeLane_of_letters_eq hi (f := Lane.restore m) cursor
      (by rw [hlane, Lane.letters_restore])
    exact ht.snoc hletters hon
  | setAside reason =>
    have hshaped := hs.settled hi hlane cursor .acknowledge
    obtain ⟨hletters', hon'⟩ := Broker.perm_enqueue hshaped (setAsideChannel d.channel)
      { m with count := 0 }
    refine ht.snoc (hletters'.trans hletters) fun name => ?_
    calc (if d.channel = name then [m.letter] else []) ++
        (h.broker.settled d m cursor (.setAside reason)).lettersOn name
      _ ~ (if d.channel = name then [m.letter] else []) ++
          ((if setAsideChannel d.channel = name then [m.letter] else []) ++
            (h.broker.settled d m cursor .acknowledge).lettersOn name) := (hon' name).append_left _
      _ ~ (if setAsideChannel d.channel = name then [m.letter] else []) ++
          ((if d.channel = name then [m.letter] else []) ++
            (h.broker.settled d m cursor .acknowledge).lettersOn name) :=
        List.perm_append_comm_assoc ..
      _ ~ (if setAsideChannel d.channel = name then [m.letter] else []) ++
          h.broker.lettersOn name := (hon name).append_left _

theorem Tallied.move {h h' : History} (ht : h.Tallied) (hs : h.broker.Shaped)
    (hmove : Move .wraps h h') : h'.Tallied := by
  cases hmove with
  | switch => exact ⟨ht.letters, ht.lettersOn⟩
  | reserve => exact ⟨ht.letters, ht.lettersOn⟩
  | post k id now name key payload hk =>
    obtain ⟨hletters, hon⟩ := Broker.perm_enqueue hs name ⟨id, key, payload, 0, now⟩
    exact ht.snoc hletters hon
  | take name i m queue cursor hi hlane =>
    obtain ⟨hletters, hon⟩ := Broker.perm_changeLane_of_letters_eq hi
      (f := Lane.handOut { m with count := m.count + 1 }) cursor
      (by rw [hlane, Lane.letters_handOut])
    exact ht.snoc hletters hon
  | lose _ _ _ _ _ _ _ hstops => cases hstops
  | settle d s m queue cursor hi hlane => exact ht.settle hs hi hlane cursor s

/-! ### Numbers -/

/-- The numbers were given out one by one. -/
structure Numbered (h : History) : Prop where
  lastId : h.broker.lastId = Int64.ofNat h.numbers
  ids : (h.reserved ++ h.published.map (·.id)).Perm
    ((List.range h.numbers).map (fun k => Int64.ofNat (k + 1)))

theorem numbered_new (lanes : UInt32) : (new lanes).Numbered := ⟨rfl, .refl _⟩

theorem Numbered.of_eq (hn : h.Numbered) {h' : History}
    (hlast : h'.broker.lastId = h.broker.lastId) (hreserved : h'.reserved = h.reserved)
    (hpublished : h'.published = h.published) : h'.Numbered := by
  have hnumbers : h'.numbers = h.numbers := by rw [numbers, numbers, hreserved, hpublished]
  constructor
  · rw [hlast, hnumbers, hn.lastId]
  · rw [hreserved, hpublished, hnumbers]
    exact hn.ids

theorem Numbered.reserve (hn : h.Numbered) :
    Numbered { h with
      broker := { h.broker with lastId := h.broker.lastId + 1 }
      reserved := h.reserved ++ [h.broker.lastId + 1] } := by
  have hnext : h.broker.lastId + 1 = Int64.ofNat (h.numbers + 1) := by
    rw [hn.lastId, Int64.ofNat_add]
    rfl
  have hnumbers : h.published.length + (h.reserved ++ [h.broker.lastId + 1]).length =
      h.numbers + 1 := by
    rw [List.length_append, List.length_singleton, numbers, Nat.add_assoc]
  constructor
  · exact hnext.trans (congrArg Int64.ofNat hnumbers.symm)
  · show ((h.reserved ++ [h.broker.lastId + 1]) ++ h.published.map (·.id)) ~
      (List.range (h.published.length + (h.reserved ++ [h.broker.lastId + 1]).length)).map _
    rw [hnumbers, List.range_succ, List.map_append, List.map_singleton, ← hnext, List.append_assoc]
    calc h.reserved ++ ([h.broker.lastId + 1] ++ h.published.map (·.id))
      _ ~ [h.broker.lastId + 1] ++ (h.reserved ++ h.published.map (·.id)) :=
        List.perm_append_comm_assoc ..
      _ ~ [h.broker.lastId + 1] ++ (List.range h.numbers).map (fun k => Int64.ofNat (k + 1)) :=
        hn.ids.append_left _
      _ ~ (List.range h.numbers).map (fun k => Int64.ofNat (k + 1)) ++ [h.broker.lastId + 1] :=
        List.perm_append_comm

theorem perm_eraseIdx {k : Nat} {id : Int64} (hk : h.reserved[k]? = some id) :
    (id :: h.reserved.eraseIdx k) ~ h.reserved := by
  obtain ⟨hlt, hget⟩ := List.getElem?_eq_some_iff.1 hk
  rw [← hget]
  exact List.getElem_cons_eraseIdx_perm hlt

theorem published_post (b : Broker) (reserved : List Int64) (name : String) (x : Letter) :
    published ⟨b, reserved, h.past ++ [.publish name x]⟩ = h.published ++ [x] := by
  rw [published, List.flatMap_append, List.flatMap_singleton]
  rfl

/-- A number that was reserved goes to the message that is put on its lane. -/
theorem numbers_post {k : Nat} {id : Int64} (hk : h.reserved[k]? = some id) (b : Broker)
    (name : String) (x : Letter) :
    numbers ⟨b, h.reserved.eraseIdx k, h.past ++ [.publish name x]⟩ = h.numbers := by
  have hlength := (perm_eraseIdx hk).length_eq
  rw [List.length_cons] at hlength
  show (published ⟨b, h.reserved.eraseIdx k, h.past ++ [.publish name x]⟩).length +
    (h.reserved.eraseIdx k).length = h.published.length + h.reserved.length
  rw [published_post, List.length_append, List.length_singleton, ← hlength]
  omega

theorem Numbered.post (hn : h.Numbered) {b : Broker} (hlast : b.lastId = h.broker.lastId) {k : Nat}
    {x : Letter} (hk : h.reserved[k]? = some x.id) (name : String) :
    Numbered ⟨b, h.reserved.eraseIdx k, h.past ++ [.publish name x]⟩ := by
  constructor
  · rw [numbers_post hk, hlast, hn.lastId]
  · rw [numbers_post hk, published_post, List.map_append, List.map_singleton]
    calc h.reserved.eraseIdx k ++ (h.published.map (·.id) ++ [x.id])
      _ ~ h.reserved.eraseIdx k ++ (x.id :: h.published.map (·.id)) :=
        (List.perm_append_singleton ..).append_left _
      _ ~ x.id :: (h.reserved.eraseIdx k ++ h.published.map (·.id)) := List.perm_middle
      _ ~ h.reserved ++ h.published.map (·.id) := (perm_eraseIdx hk).append_right _
      _ ~ (List.range h.numbers).map (fun k => Int64.ofNat (k + 1)) := hn.ids

theorem published_snoc {o : Occurrence} (ho : o.published = []) :
    (h.past ++ [o]).flatMap (·.published) = h.published := by
  rw [List.flatMap_append, List.flatMap_singleton, ho, List.append_nil, published]

theorem Numbered.move {o : Overflow} {h h' : History} (hn : h.Numbered) (hmove : Move o h h') :
    h'.Numbered := by
  cases hmove with
  | switch => exact hn.of_eq rfl rfl rfl
  | reserve => exact hn.reserve
  | post k id now name key payload hk =>
    have hlast : (h.broker.enqueue name ⟨id, key, payload, 0, now⟩).lastId = h.broker.lastId := rfl
    exact hn.post (x := ⟨id, key, payload, now⟩) hlast hk name
  | take => exact hn.of_eq rfl rfl (published_snoc rfl)
  | lose => exact hn.of_eq rfl rfl rfl
  | settle d s => exact hn.of_eq (by cases s <;> rfl) rfl (published_snoc rfl)

theorem numbers_perform_post (h : History) (k : Nat) (now : Timestamp) (name key : String)
    (payload : ByteArray) : (h.perform (.post k now name key payload)).numbers = h.numbers := by
  rw [perform]
  split
  · rfl
  · next hk => exact numbers_post hk ..

theorem numbers_perform_reserve (h : History) : (h.perform .reserve).numbers ≤ h.numbers + 1 := by
  rw [perform]
  split
  · exact Nat.le_succ _
  · show h.published.length + (h.reserved ++ [h.broker.lastId + 1]).length ≤ h.numbers + 1
    rw [List.length_append, List.length_singleton, numbers]
    omega

theorem numbers_perform_take (h : History) (name : String) :
    (h.perform (.take name)).numbers = h.numbers := by
  rw [perform]
  split
  · next d b hd =>
    exact congrArg (·.length + h.reserved.length) (published_snoc (o := .handOut d) rfl)
  · rfl

theorem numbers_perform_le (h : History) (op : Operation) :
    (h.perform op).numbers ≤ h.numbers + if op.takesNumber then 1 else 0 := by
  cases op with
  | publish now name key payload =>
    rw [perform_publish, numbers_perform_post]
    exact h.numbers_perform_reserve
  | reserve => exact h.numbers_perform_reserve
  | post => rw [numbers_perform_post]; exact Nat.le_refl _
  | receive name =>
    rcases h.perform_receive name with heq | heq <;> rw [heq]
    · exact Nat.le_refl _
    · rw [numbers_perform_take]; exact Nat.le_refl _
  | take name => rw [numbers_perform_take]; exact Nat.le_refl _
  | settle d s =>
    refine Nat.le_of_eq ?_
    rw [perform]
    split
    · next m b _ _ =>
      exact congrArg (·.length + h.reserved.length) (published_snoc (o := .settle d m.letter s) rfl)
    · rfl
  | setUnreachable | close => exact Nat.le_refl _

/-- A run takes no more numbers than it has operations that take one. -/
theorem numbers_run_le (h : History) (ops : List Operation) :
    (h.run ops).numbers ≤ h.numbers + ops.countP Operation.takesNumber := by
  induction ops generalizing h with
  | nil => exact Nat.le_refl _
  | cons op rest ih =>
    have h₁ := ih (h.perform op)
    have h₂ := h.numbers_perform_le op
    rw [List.countP_cons]
    exact Nat.le_trans h₁ (by omega)

/-- As long as the counter does not come round, no two messages have one number. -/
theorem Numbered.nodup (hn : h.Numbered) (hlt : h.numbers < 2 ^ 63) :
    (h.published.map (·.id)).Nodup := by
  have hall : ((List.range h.numbers).map (fun k => Int64.ofNat (k + 1))).Nodup := by
    refine List.nodup_range.map_on ?_
    intro a ha b hb hab
    rw [List.mem_range] at ha hb
    have hint := congrArg Int64.toInt hab
    rw [Int64.toInt_ofNat_of_lt (by omega), Int64.toInt_ofNat_of_lt (by omega)] at hint
    omega
  exact (List.nodup_append.1 (hn.ids.nodup_iff.2 hall)).2.1

/-! ### Conservation -/

/-- What the past of a broker with `lanes` lanes says about what it holds. -/
structure Conserved (h : History) (lanes : UInt32) : Prop where
  nodup_ids : (h.broker.letters.map (·.id)).Nodup
  /-- A message is acknowledged once and gone, or never and there once, as it was published. -/
  published : ∀ x ∈ h.published,
    (h.acknowledged.count x = 1 ∧ ∀ y ∈ h.broker.letters, y.id ≠ x.id) ∨
    (x ∉ h.acknowledged ∧ h.broker.letters.count x = 1)
  mem_published : ∀ x, x ∈ h.broker.letters ∨ x ∈ h.acknowledged → x ∈ h.published
  lanes_eq : h.broker.lanes = max lanes 1
  length_lanes : ∀ name c, h.broker.channels.get? name = some c →
    c.lanes.length = (max lanes 1).toNat
  laneOf_eq : ∀ name c i l, h.broker.channels.get? name = some c → c.lanes[i]? = some l →
    ∀ x ∈ l.letters, (laneOf x.key (max lanes 1)).toNat = i
  laneOf_lt : ∀ key, (laneOf key (max lanes 1)).toNat < (max lanes 1).toNat
  pending_eq : ∀ name, h.broker.pending name + (h.acknowledgedOn name).length +
    (h.setAsideFrom name).length = (h.publishedOn name).length + (h.setAsideInto name).length

theorem Tallied.nodup_ids (ht : h.Tallied) (hids : (h.published.map (·.id)).Nodup) :
    (h.acknowledged.map (·.id) ++ h.broker.letters.map (·.id)).Nodup := by
  rw [← List.map_append]
  exact (ht.letters.map _).nodup_iff.2 hids

theorem Tallied.once (ht : h.Tallied) (hids : (h.published.map (·.id)).Nodup) {x : Letter}
    (hx : x ∈ h.published) :
    (h.acknowledged.count x = 1 ∧ ∀ y ∈ h.broker.letters, y.id ≠ x.id) ∨
      (x ∉ h.acknowledged ∧ h.broker.letters.count x = 1) := by
  have hcount : h.acknowledged.count x + h.broker.letters.count x = 1 := by
    rw [← List.count_append, ht.letters.count_eq]
    exact List.count_eq_one_of_mem hids.of_map hx
  by_cases hacked : x ∈ h.acknowledged
  · have hpos := List.count_pos_iff.2 hacked
    have hdisjoint := (List.nodup_append.1 (ht.nodup_ids hids)).2.2
    refine .inl ⟨by omega, fun y hy heq => ?_⟩
    exact hdisjoint x.id (List.mem_map_of_mem hacked) y.id (List.mem_map_of_mem hy) heq.symm
  · have hzero := List.count_eq_zero.2 hacked
    exact .inr ⟨hacked, by omega⟩

theorem Tallied.pending_eq (ht : h.Tallied) (name : String) :
    h.broker.pending name + (h.acknowledgedOn name).length + (h.setAsideFrom name).length =
      (h.publishedOn name).length + (h.setAsideInto name).length := by
  have := (ht.lettersOn name).length_eq
  simp only [List.length_append, Broker.length_lettersOn] at this
  omega

/-- Every run conserves what was published. -/
theorem run_conserved (lanes : UInt32) (ops : List Operation)
    (hlt : ops.countP Operation.takesNumber < 2 ^ 63) :
    ((new lanes).run ops).Conserved lanes := by
  replace hlt : ((new lanes).run ops).numbers < 2 ^ 63 := by
    have hle := (new lanes).numbers_run_le ops
    have hnone : (new lanes).numbers = 0 := rfl
    omega
  obtain ⟨hshaped, htallied, hnumbered, hlanes⟩ :
      let h := (new lanes).run ops
      h.broker.Shaped ∧ h.Tallied ∧ h.Numbered ∧ h.broker.lanes = max lanes 1 := by
    refine run_keeps (P := fun h => h.broker.Shaped ∧ h.Tallied ∧ h.Numbered ∧
      h.broker.lanes = max lanes 1) ?_
      ⟨Broker.shaped_new lanes, tallied_new lanes, numbered_new lanes, rfl⟩ ops
    rintro h h' hmove ⟨hs, ht, hn, hl⟩
    exact ⟨hmove.shaped hs, ht.move hs hmove, hn.move hmove, hmove.lanes_eq.trans hl⟩
  generalize (new lanes).run ops = h at *
  have hids := hnumbered.nodup hlt
  refine ⟨(List.nodup_append.1 (htallied.nodup_ids hids)).2.1, fun x hx => htallied.once hids hx,
    fun x hx => ?_, hlanes, fun name c hc => ?_, fun name c i l hc hl x hx => ?_, fun key => ?_,
    htallied.pending_eq⟩
  · rw [← htallied.letters.mem_iff, List.mem_append]
    exact hx.symm
  · rw [← hlanes, ← hshaped.length_lanes name, Broker.channel_of_get? hc]
  · rw [← hlanes]
    refine hshaped.laneOf_eq name i x ?_
    rwa [Broker.laneAt, Broker.channel_of_get? hc, hl]
  · rw [← hlanes]
    exact Broker.laneOf_lt key hshaped.lanes_pos

/-- A message is handed out, settled twice, and given up, while another is published. -/
theorem run_conserved_dispute :
    let d : Delivery := ⟨1, "transactions", "7", 0, ⟨#[]⟩, 1, default⟩
    let ops : List Operation := [.publish default "transactions" "7" ⟨#[1]⟩,
      .receive "transactions", .settle d .requeue, .publish default "transactions" "7" ⟨#[2]⟩,
      .settle d .acknowledge, .receive "transactions", .settle d (.setAside "broken"), .close]
    ops.countP Operation.takesNumber < 2 ^ 63 ∧ ((new 1).run ops).Conserved 1 := by
  intro d ops
  have hlt : ops.countP Operation.takesNumber < 2 ^ 63 := by decide
  exact ⟨hlt, run_conserved 1 ops hlt⟩

end History

end SpendingLedger
