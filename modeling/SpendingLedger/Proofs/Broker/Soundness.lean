import SpendingLedger.Proofs.Broker.Conservation
import SpendingLedger.Proofs.Broker.LaneOrder
import Mathlib.Data.List.Flatten

/-!
How messages come to a channel, and all that holds of a broker and its past. What is given up goes
to a channel with a longer name, so it never comes back: a message comes to a channel at most once.
-/

namespace SpendingLedger

/-! ### Coming to a channel -/

/-- The letter that is published, if the name of the channel is shorter than `n`. -/
def Occurrence.publishedShorter (n : Nat) : Occurrence → List Letter
  | .publish name x => if name.length < n then [x] else []
  | _ => []

theorem setAsideChannel_inj {name name' : String} (h : setAsideChannel name = setAsideChannel name') :
    name = name' := by
  have hlist := congrArg String.toList h
  rw [setAsideChannel, setAsideChannel, String.toList_append, String.toList_append] at hlist
  exact String.toList_injective (List.append_cancel_right hlist)

theorem length_setAsideChannel (name : String) :
    (setAsideChannel name).length = name.length + 12 := by
  rw [setAsideChannel, String.length_append]
  rfl

namespace Occurrence

/-- What comes to the channel of messages given up comes from the one it belongs to. -/
theorem setAsideInto_setAsideChannel (o : Occurrence) (name : String) :
    o.setAsideInto (setAsideChannel name) = o.setAsideFrom name := by
  cases o with
  | publish | handOut => rfl
  | settle d x s =>
    cases s with
    | acknowledge | requeue => rfl
    | setAside reason =>
      have hiff : setAsideChannel d.channel = setAsideChannel name ↔ d.channel = name :=
        ⟨setAsideChannel_inj, congrArg setAsideChannel⟩
      simp only [setAsideInto, setAsideFrom, hiff]

theorem setAsideInto_eq_nil {name : String} (h : ∀ name', setAsideChannel name' ≠ name)
    (o : Occurrence) : o.setAsideInto name = [] := by
  cases o with
  | publish | handOut => rfl
  | settle d x s =>
    cases s with
    | acknowledge | requeue => rfl
    | setAside reason => exact if_neg (h d.channel)

theorem count_publishedOn_add_le (x : Letter) {n : Nat} {name : String} (h : n ≤ name.length)
    (o : Occurrence) : (o.publishedOn name).count x + (o.publishedShorter n).count x ≤
      (o.publishedShorter (name.length + 1)).count x := by
  cases o with
  | handOut | settle => exact Nat.zero_le _
  | publish name' y =>
    simp only [publishedOn, publishedShorter]
    by_cases hname : name' = name
    · subst hname
      exact Nat.le_of_eq (by rw [if_pos rfl, if_neg (by omega), if_pos (by omega)]; rfl)
    · rw [if_neg hname, List.count_nil, Nat.zero_add]
      by_cases hn : name'.length < n
      · exact Nat.le_of_eq (by rw [if_pos hn, if_pos (by omega)])
      · simp [hn]

theorem publishedShorter_sublist (n : Nat) (o : Occurrence) :
    (o.publishedShorter n).Sublist o.published := by
  cases o with
  | handOut | settle => exact .refl _
  | publish name x =>
    rw [publishedShorter, published]
    split
    · exact .refl _
    · exact List.nil_sublist _

end Occurrence

namespace History

def publishedShorter (h : History) (n : Nat) : List Letter :=
  h.past.flatMap (·.publishedShorter n)

theorem count_publishedOn_add_le (h : History) (x : Letter) (name : String) {n : Nat}
    (hn : n ≤ name.length) : (h.publishedOn name).count x + (h.publishedShorter n).count x ≤
      (h.publishedShorter (name.length + 1)).count x := by
  simp only [publishedOn, publishedShorter]
  induction h.past with
  | nil => exact Nat.le_refl _
  | cons o rest ih =>
    have hone := Occurrence.count_publishedOn_add_le x hn o
    simp only [List.flatMap_cons, List.count_append]
    omega

theorem publishedShorter_sublist (h : History) (n : Nat) :
    (h.publishedShorter n).Sublist h.published :=
  .flatMap_right _ fun o _ => o.publishedShorter_sublist n

theorem setAsideInto_setAsideChannel (h : History) (name : String) :
    h.setAsideInto (setAsideChannel name) = h.setAsideFrom name :=
  List.flatMap_congr fun o _ => o.setAsideInto_setAsideChannel name

theorem setAsideInto_eq_nil (h : History) {name : String}
    (hname : ∀ name', setAsideChannel name' ≠ name) : h.setAsideInto name = [] :=
  List.flatMap_eq_nil_iff.2 fun o _ => o.setAsideInto_eq_nil hname

variable {h : History}

/-- What comes to a channel was published on one whose name is not longer. -/
theorem Tallied.count_arrivals_le (ht : h.Tallied) (x : Letter) (name : String) :
    (h.setAsideInto name).count x + (h.publishedOn name).count x ≤
      (h.publishedShorter (name.length + 1)).count x := by
  induction hn : name.length using Nat.strongRecOn generalizing name with | _ n ih
  subst hn
  by_cases hname : ∃ name', setAsideChannel name' = name
  · obtain ⟨name', rfl⟩ := hname
    have hlength := length_setAsideChannel name'
    have hbefore := ih name'.length (by omega) name' rfl
    have htally := (ht.lettersOn name').count_eq x
    simp only [List.count_append] at htally
    have hon := h.count_publishedOn_add_le x (setAsideChannel name') (n := name'.length + 1)
      (by omega)
    rw [setAsideInto_setAsideChannel]
    omega
  · have hon := h.count_publishedOn_add_le x name (Nat.zero_le _)
    rw [h.setAsideInto_eq_nil fun name' heq => hname ⟨name', heq⟩, List.count_nil]
    omega

/-- A message comes to a channel at most once. -/
theorem Tallied.count_arrivals_le_one (ht : h.Tallied) (hids : (h.published.map (·.id)).Nodup)
    (x : Letter) (name : String) :
    (h.setAsideInto name).count x + (h.publishedOn name).count x ≤ 1 :=
  calc (h.setAsideInto name).count x + (h.publishedOn name).count x
    _ ≤ (h.publishedShorter (name.length + 1)).count x := ht.count_arrivals_le x name
    _ ≤ h.published.count x := (h.publishedShorter_sublist _).count_le x
    _ ≤ 1 := List.nodup_iff_count_le_one.1 hids.of_map x

/-- What was acknowledged or given up on a channel is not there any more. -/
theorem Tallied.not_mem_lettersOn (ht : h.Tallied) (hids : (h.published.map (·.id)).Nodup)
    {d : Delivery} {x : Letter} {s : Settlement} (hmem : .settle d x s ∈ h.past)
    (hs : s ≠ .requeue) : x ∉ h.broker.lettersOn d.channel := by
  have hone := ht.count_arrivals_le_one hids x d.channel
  have htally := (ht.lettersOn d.channel).count_eq x
  simp only [List.count_append] at htally
  have hgone : 0 < (h.acknowledgedOn d.channel).count x + (h.setAsideFrom d.channel).count x := by
    cases s with
    | requeue => contradiction
    | acknowledge =>
      have : x ∈ h.acknowledgedOn d.channel :=
        List.mem_flatMap.2 ⟨_, hmem, by simp [Occurrence.acknowledgedOn]⟩
      exact Nat.add_pos_left (List.count_pos_iff.2 this) _
    | setAside reason =>
      have : x ∈ h.setAsideFrom d.channel :=
        List.mem_flatMap.2 ⟨_, hmem, by simp [Occurrence.setAsideFrom]⟩
      exact Nat.add_pos_right _ (List.count_pos_iff.2 this)
  rw [← List.count_eq_zero]
  omega

/-- What comes to a channel is published there or given up elsewhere. -/
theorem count_arrivalsOn (h : History) (name : String) (x : Letter) :
    (h.arrivalsOn name).count x =
      (h.setAsideInto name).count x + (h.publishedOn name).count x := by
  rw [arrivalsOn, setAsideInto, publishedOn]
  induction h.past with
  | nil => rfl
  | cons o rest ih =>
    have hone : (o.arrivalsOn name).count x =
        (o.setAsideInto name).count x + (o.publishedOn name).count x := by
      cases o with
      | publish => exact (Nat.zero_add _).symm
      | handOut => rfl
      | settle d y how => cases how <;> rfl
    simp only [List.flatMap_cons, List.count_append, ih, hone]
    omega

theorem arrivalsOn_eq_publishedOn (h : History) (hname : ∀ name', setAsideChannel name' ≠ name) :
    h.arrivalsOn name = h.publishedOn name := by
  refine List.flatMap_congr fun o _ => ?_
  cases o with
  | publish | handOut => rfl
  | settle d x how =>
    cases how with
    | acknowledge | requeue => rfl
    | setAside reason => exact if_neg (hname d.channel)

theorem arrivalsAt_sublist (h : History) (name : String) (i : Nat) :
    (h.arrivalsAt name i).Sublist (h.arrivalsOn name) := by
  rw [arrivalsAt_eq]
  exact List.filter_sublist

theorem laneOf_of_mem_arrivalsAt {x : Letter} {name : String} {i : Nat}
    (hx : x ∈ h.arrivalsAt name i) :
    (laneOf x.key h.broker.lanes).toNat = i := by
  rw [arrivalsAt_eq] at hx
  simpa using List.of_mem_filter hx

/-! ### Settling -/

/-- Whoever settles has the number of the message right, and the message was published. -/
def Identified (h : History) : Prop :=
  ∀ d x s, .settle d x s ∈ h.past → x.id = d.id ∧ x ∈ h.published

theorem Identified.snoc (hi : h.Identified) {o : Occurrence}
    (ho : ∀ d x s, o = .settle d x s → x.id = d.id ∧ x ∈ h.published) (b : Broker)
    (reserved : List Int64) : Identified ⟨b, reserved, h.past ++ [o]⟩ := by
  intro d x s hmem
  obtain ⟨hid, hx⟩ : x.id = d.id ∧ x ∈ h.published := by
    rcases List.mem_append.1 hmem with hmem | hmem
    · exact hi d x s hmem
    · exact ho d x s (List.mem_singleton.1 hmem).symm
  refine ⟨hid, ?_⟩
  rw [published, List.flatMap_append]
  exact List.mem_append_left _ hx

theorem Identified.move {h h' : History} (hi : h.Identified) (ht : h.Tallied)
    (hmove : Move .wraps h h') : h'.Identified := by
  cases hmove with
  | switch | reserve => exact hi
  | post | take => exact hi.snoc (fun _ _ _ heq => by cases heq) _ _
  | lose _ _ _ _ _ _ _ hstops => cases hstops
  | settle d s m queue cursor hlt hlane hid =>
    refine hi.snoc (fun d' x s' heq => ?_) _ _
    obtain ⟨rfl, rfl, rfl⟩ := Occurrence.settle.inj heq
    exact ⟨hid, ht.letters.subset (List.mem_append_right _ (Broker.mem_letters hlt hlane).2)⟩

/-! ### All of it -/

/-- What holds of a broker and its past, whatever was asked of it. -/
structure Sound (h : History) : Prop where
  shaped : h.broker.Shaped
  tallied : h.Tallied
  numbered : h.Numbered
  inOrder : h.LanesInOrder .wraps
  placed : h.Placed
  identified : h.Identified

theorem sound_new (lanes : UInt32) : (new lanes).Sound where
  shaped := Broker.shaped_new lanes
  tallied := tallied_new lanes
  numbered := numbered_new lanes
  inOrder := lanesInOrder_new .wraps lanes
  placed _ _ hd := absurd hd List.not_mem_nil
  identified _ _ _ hmem := absurd hmem List.not_mem_nil

theorem Sound.move {h h' : History} (hs : h.Sound) (hmove : Move .wraps h h') : h'.Sound where
  shaped := hmove.shaped hs.shaped
  tallied := hs.tallied.move hs.shaped hmove
  numbered := hs.numbered.move hmove
  inOrder := hs.inOrder.move hs.shaped hmove
  placed := hs.placed.move hs.shaped hmove
  identified := hs.identified.move hs.tallied hmove

theorem Sound.perform (hs : h.Sound) (op : Operation) : (h.perform op).Sound :=
  perform_keeps (fun hmove hs => hs.move hmove) op hs

theorem Sound.run (hs : h.Sound) (ops : List Operation) : (h.run ops).Sound :=
  run_keeps (fun hmove hs => hs.move hmove) hs ops

/-- A message comes to a channel at most once, as long as the counter does not come round. -/
theorem Sound.count_arrivalsOn_le_one (hs : h.Sound) (hlt : h.numbers < 2 ^ 63) (name : String)
    (x : Letter) : (h.arrivalsOn name).count x ≤ 1 := by
  rw [count_arrivalsOn]
  exact hs.tallied.count_arrivals_le_one (hs.numbered.nodup hlt) x name

end History

end SpendingLedger
