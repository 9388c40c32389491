import Mathlib.Logic.Relation
import QOrder.Alone
import QOrder.CustomerPage

/-! Workers that commit a change, stamp its event and hand it to Redis, each step at a
time of its own, and the page of a customer that stays connected. They take turns: a turn is
taken or refused, under a condition on the turns taken. -/

namespace Turns

variable {S X : Type}

inductive Step (step : S → X → Option S) (allowed : S → X → Prop) : S → S → Prop
  | turn {s s' : S} (x : X) (hx : allowed s x) (h : step s x = some s') : Step step allowed s s'

abbrev Runs (step : S → X → Option S) (allowed : S → X → Prop) : S → S → Prop :=
  Relation.ReflTransGen (Step step allowed)

def play (step : S → X → Option S) (allowed : S → X → Bool) : List X → S → Option S
  | [], s => some s
  | x :: xs, s => if allowed s x then (step s x).bind (play step allowed xs) else none

variable {step : S → X → Option S} {allowed : S → X → Prop} {s s' : S}

/-- What holds at the start and is kept by every allowed turn holds in every state reached. -/
theorem Runs.invariant {I : S → Prop} (hr : Runs step allowed s s') (hs : I s)
    (hI : ∀ s x s', I s → allowed s x → step s x = some s' → I s') : I s' := by
  induction hr with
  | refl => exact hs
  | tail _ h ih =>
    cases h with
    | turn x hx h => exact hI _ x _ ih hx h

theorem runs_play {check : S → X → Bool} (hcheck : ∀ s x, check s x = true → allowed s x)
    {xs : List X} (h : play step check xs s = some s') : Runs step allowed s s' := by
  induction xs generalizing s with
  | nil =>
    cases h
    exact .refl
  | cons x xs ih =>
    simp only [play] at h
    split at h
    next hx =>
      obtain ⟨m, hm, hr⟩ := Option.bind_eq_some_iff.mp h
      exact .head (.turn x (hcheck s x hx) hm) (ih hr)
    · cases h

/-- A schedule whose last state passes a test leads to a state that passes it. -/
theorem exists_run (step : S → X → Option S) {allowed : S → X → Prop} (s : S) (check : S → X → Bool)
    (test : S → Bool) (xs : List X) (hcheck : ∀ s x, check s x = true → allowed s x)
    (h : (play step check xs s).any test = true) : ∃ s', Runs step allowed s s' ∧ test s' = true := by
  obtain ⟨s', hp, ht⟩ := (Option.any_eq_true _ _).mp h
  exact ⟨s', runs_play hcheck hp, ht⟩

end Turns

namespace QOrder

open KeyedTable Concurrency

namespace ItemChange.Commits

variable {x : ItemChange} {d d' : Data} {now : Timestamp} {i i' : OrderItem} {sessionId : Uuid}

/-- The event of a committed change sets the status that the row has now. -/
theorem handle (hc : x.Commits d now i d') (page : Page) :
    page.handleWsEvent (x.event i) = page.setStatus i.id i.status := by
  rcases hc.event with he | ⟨hs, cancelledBy, orderId, he⟩
  · rw [he]
    rfl
  · rw [he, hs]
    rfl

theorem inSession (hc : x.Commits d now i' d') (i : OrderItem) :
    d'.inSession sessionId i = d.inSession sessionId i := by
  rw [Data.inSession, Data.inSession, hc.orders]

theorem mem_itemsOf (hc : x.Commits d now i' d') (hk : UniqueKeys d.items)
    (hi : i ∈ d'.itemsOf sessionId) : i = i' ∨ i.id ≠ i'.id ∧ i ∈ d.itemsOf sessionId := by
  obtain ⟨hm, hs⟩ := Data.mem_itemsOf.mp hi
  rw [hc.items, mem_overlay hk (uniqueKeys_singleton _)] at hm
  rcases hm with hm | ⟨hm, hn⟩
  · exact .inl (List.mem_singleton.mp hm)
  · have hne : i.id ≠ i'.id := fun he => by simp [lookup_singleton, he] at hn
    exact .inr ⟨hne, Data.mem_itemsOf.mpr ⟨hm, (hc.inSession i) ▸ hs⟩⟩

theorem before (hc : x.Commits d now i' d') (hi : d'.inSession sessionId i' = true) :
    ∃ i ∈ d.itemsOf sessionId, i.id = i'.id := by
  obtain ⟨i, hl, hm⟩ := hc.moved
  have hs : d.inSession sessionId i = true := by
    rw [Data.inSession_congr hm.orderId_eq.symm, ← hc.inSession]
    exact hi
  exact ⟨i, Data.mem_itemsOf.mpr ⟨mem_of_lookup hl, hs⟩, hm.id_eq.symm⟩

theorem itemIds (hc : x.Commits d now i' d') (hk : UniqueKeys d.items) : UniqueKeys d'.items := by
  rw [hc.items]
  exact uniqueKeys_overlay hk (uniqueKeys_singleton _)

end ItemChange.Commits

/-- A change between its commit and the handing over of its event. -/
structure Flight where
  number : Nat
  item : OrderItem
  event : RealtimeEvent
  seq : Option Nat := none

/-- Changes are numbered in the order of their commits. -/
structure Feed where
  data : Data
  clock : Nat
  commits : Nat := 0
  lastChange : Uuid → Option Nat := fun _ => none
  inFlight : List Flight := []
  channel : List Message := []
  page : Page

namespace Feed

inductive Turn
  | commit (x : ItemChange) (now : Timestamp)
  | stamp (number : Nat)
  | hand (number : Nat)
  | deliver
  | tick (clock : Nat)

variable (sessionId : Uuid) (σ : Feed)

def announce (x : ItemChange) (i : OrderItem) (data : Data) : Feed :=
  { σ with
    data
    commits := σ.commits + 1
    lastChange := Function.update σ.lastChange i.id (some σ.commits)
    inFlight := σ.inFlight ++ [{ number := σ.commits, item := i, event := x.event i }] }

def stamp (number : Nat) : Feed :=
  { σ with
    inFlight := σ.inFlight.map fun f =>
      if f.number = number ∧ f.seq = none then { f with seq := some σ.clock } else f }

def hand (f : Flight) (seq : Nat) : Feed :=
  { σ with
    inFlight := σ.inFlight.filter fun g => g.number ≠ f.number
    channel := σ.channel ++ [⟨f.event, seq⟩] }

def step : Turn → Option Feed
  | .commit x now =>
    match x.commit σ.data now with
    | some (i, data) => if data.inSession sessionId i then some (σ.announce x i data) else none
    | none => none
  | .stamp number => some (σ.stamp number)
  | .hand number =>
    match σ.inFlight.find? fun f => f.number = number with
    | some f => f.seq.map fun seq => σ.hand f seq
    | none => none
  | .deliver =>
    match σ.channel with
    | m :: ms => some { σ with page := σ.page.onMessage m, channel := ms }
    | [] => none
  | .tick clock => if σ.clock ≤ clock then some { σ with clock } else none

/-- The page once everything handed over has been delivered. -/
def settled : Page := σ.page.receive σ.channel

/-- A message is handed over while the page will let it through only if the last change
of its item is its own or still in flight, and else only if it is not the last one. -/
def Orderly : Turn → Prop
  | .hand number => ∀ f ∈ σ.inFlight, f.number = number → ∀ seq ∈ f.seq,
    if σ.settled.Accepts seq then ∃ g ∈ σ.inFlight, σ.lastChange f.item.id = some g.number
    else σ.lastChange f.item.id ≠ some f.number
  | _ => True

instance (x : Turn) : Decidable (σ.Orderly x) := by
  cases x <;> unfold Orderly <;> infer_instance

def Agrees : Prop := ∀ i ∈ σ.data.itemsOf sessionId, σ.page.Shows i

instance : Decidable (σ.Agrees sessionId) := inferInstanceAs (Decidable (∀ _ ∈ _, _))

/-- A page in agreement with the database, and no worker under way. -/
structure Start : Prop where
  itemIds : UniqueKeys σ.data.items
  agrees : σ.Agrees sessionId
  lastChange : ∀ k, σ.lastChange k = none
  inFlight : σ.inFlight = []
  channel : σ.channel = []

abbrev Runs (allowed : Feed → Turn → Prop) : Feed → Feed → Prop :=
  Turns.Runs (step sessionId) allowed

structure Inv : Prop where
  itemIds : UniqueKeys σ.data.items
  numbers : (σ.inFlight.map Flight.number).Nodup
  flown : ∀ f ∈ σ.inFlight, f.number < σ.commits
  last : ∀ k number, σ.lastChange k = some number → number < σ.commits
  own : ∀ f ∈ σ.inFlight, ∀ k, σ.lastChange k = some f.number → f.item.id = k
  tells : ∀ f ∈ σ.inFlight, ∀ page : Page,
    page.handleWsEvent f.event = page.setStatus f.item.id f.item.status
  current : ∀ f ∈ σ.inFlight, σ.lastChange f.item.id = some f.number →
    ∀ i, lookup f.item.id σ.data.items = some i → i.status = f.item.status
  listed : ∀ i ∈ σ.data.itemsOf sessionId, ∃ x ∈ σ.settled.sessionItems, x.id = i.id
  shown : ∀ i ∈ σ.data.itemsOf sessionId,
    (∃ f ∈ σ.inFlight, f.item.id = i.id ∧ σ.lastChange i.id = some f.number) ∨ σ.settled.Shows i

variable {sessionId σ} {σ' : Feed} {i : OrderItem} {x : ItemChange} {f : Flight}

theorem Start.inv (h : σ.Start sessionId) : σ.Inv sessionId where
  itemIds := h.itemIds
  numbers := by simp [h.inFlight]
  flown := by simp [h.inFlight]
  last k number hk := by
    rw [h.lastChange k] at hk
    cases hk
  own := by simp [h.inFlight]
  tells := by simp [h.inFlight]
  current := by simp [h.inFlight]
  listed i hi := by
    have hs := (h.agrees i hi).1
    simpa [settled, h.channel] using hs
  shown i hi := .inr (by simpa [settled, h.channel] using h.agrees i hi)

theorem Inv.announce (h : σ.Inv sessionId) {now : Timestamp} {data : Data}
    (hc : x.Commits σ.data now i data) : (σ.announce x i data).Inv sessionId where
  itemIds := hc.itemIds h.itemIds
  numbers := by
    have hn : ∀ f ∈ σ.inFlight, f.number ≠ σ.commits := fun f hf => (h.flown f hf).ne
    simpa [Feed.announce, List.nodup_append, h.numbers] using hn
  flown f hf := by
    rcases List.mem_append.mp hf with hf | hf
    · exact Nat.lt_succ_of_lt (h.flown f hf)
    · rw [List.mem_singleton.mp hf]
      exact Nat.lt_succ_self _
  last k number hk := by
    by_cases hki : k = i.id
    · subst hki
      have hn : σ.commits = number := by simpa [Feed.announce] using hk
      rw [← hn]
      exact Nat.lt_succ_self _
    · have hk' : σ.lastChange k = some number := by simpa [Feed.announce, hki] using hk
      exact Nat.lt_succ_of_lt (h.last k number hk')
  own f hf k hk := by
    by_cases hki : k = i.id
    · have hn : σ.commits = f.number := by simpa [Feed.announce, hki] using hk
      rcases List.mem_append.mp hf with hf | hf
      · exact absurd hn.symm (h.flown f hf).ne
      · rw [List.mem_singleton.mp hf, hki]
    · have hk' : σ.lastChange k = some f.number := by simpa [Feed.announce, hki] using hk
      rcases List.mem_append.mp hf with hf | hf
      · exact h.own f hf k hk'
      · rw [List.mem_singleton.mp hf] at hk'
        exact absurd (h.last k _ hk') (Nat.lt_irrefl _)
  tells f hf page := by
    rcases List.mem_append.mp hf with hf | hf
    · exact h.tells f hf page
    · rw [List.mem_singleton.mp hf]
      exact hc.handle page
  current f hf hl j hj := by
    have hj' : lookup f.item.id (overlay σ.data.items [i]) = some j := by
      rw [← hc.items]
      exact hj
    rcases List.mem_append.mp hf with hf | hf
    · have hne : f.item.id ≠ i.id := by
        intro he
        have hn : σ.commits = f.number := by simpa [Feed.announce, he] using hl
        exact (h.flown f hf).ne hn.symm
      have hl' : σ.lastChange f.item.id = some f.number := by simpa [Feed.announce, hne] using hl
      refine h.current f hf hl' j ?_
      simpa [lookup_singleton, hne.symm] using hj'
    · obtain rfl := List.mem_singleton.mp hf
      have he : i = j := by simpa [lookup_singleton] using hj'
      rw [he]
  listed j hj := by
    rcases hc.mem_itemsOf h.itemIds hj with rfl | ⟨-, hj⟩
    · obtain ⟨i₀, hi₀, hid⟩ := hc.before (Data.mem_itemsOf.mp hj).2
      rw [← hid]
      exact h.listed i₀ hi₀
    · exact h.listed j hj
  shown j hj := by
    rcases hc.mem_itemsOf h.itemIds hj with rfl | ⟨hne, hj⟩
    · exact .inl ⟨_, List.mem_append_right _ List.mem_cons_self, rfl, by simp [Feed.announce]⟩
    · rcases h.shown j hj with ⟨f, hf, hid, hl⟩ | hs
      · exact .inl ⟨f, List.mem_append_left _ hf, hid, by simpa [Feed.announce, hne] using hl⟩
      · exact .inr hs

theorem Inv.stamp (h : σ.Inv sessionId) (number : Nat) : (σ.stamp number).Inv sessionId := by
  have back {f' : Flight} (hf : f' ∈ (σ.stamp number).inFlight) : ∃ f ∈ σ.inFlight,
      f'.number = f.number ∧ f'.item = f.item ∧ f'.event = f.event := by
    obtain ⟨f, hm, rfl⟩ := List.mem_map.mp hf
    refine ⟨f, hm, ?_⟩
    split <;> exact ⟨rfl, rfl, rfl⟩
  refine ⟨h.itemIds, ?_, fun f' hf' => ?_, h.last, fun f' hf' k hk => ?_, fun f' hf' page => ?_, fun f' hf' hl j hj => ?_,
    h.listed, fun j hj => ?_⟩
  · have hn : (σ.stamp number).inFlight.map Flight.number = σ.inFlight.map Flight.number := by
      rw [Feed.stamp, List.map_map]
      refine List.map_congr_left fun f _ => ?_
      simp only [Function.comp]
      split <;> rfl
    rw [hn]
    exact h.numbers
  · obtain ⟨f, hf, hn, -, -⟩ := back hf'
    rw [hn]
    exact h.flown f hf
  · obtain ⟨f, hf, hn, hi, -⟩ := back hf'
    rw [hn] at hk
    rw [hi]
    exact h.own f hf k hk
  · obtain ⟨f, hf, -, hi, he⟩ := back hf'
    rw [hi, he]
    exact h.tells f hf page
  · obtain ⟨f, hf, hn, hi, -⟩ := back hf'
    rw [hi] at hj hl ⊢
    rw [hn] at hl
    exact h.current f hf hl j hj
  · rcases h.shown j hj with ⟨f, hf, hid, hl⟩ | hs
    · refine .inl ⟨_, List.mem_map_of_mem hf, ?_, ?_⟩
      · split <;> exact hid
      · split <;> exact hl
    · exact .inr hs

theorem mem_hand {seq : Nat} {g : Flight} :
    g ∈ (σ.hand f seq).inFlight ↔ g ∈ σ.inFlight ∧ g.number ≠ f.number := by
  simp [Feed.hand]

theorem settled_hand {seq : Nat} :
    (σ.hand f seq).settled = σ.settled.onMessage ⟨f.event, seq⟩ := by
  simp [Feed.hand, settled]

/-- After a message that the page lets through, every item but its own is shown as before. -/
theorem Inv.accepted (h : σ.Inv sessionId) (hf : f ∈ σ.inFlight) {seq : Nat}
    (ha : σ.settled.Accepts seq) : (σ.hand f seq).settled.sessionItems =
      (σ.settled.setStatus f.item.id f.item.status).sessionItems := by
  have hp := Page.onMessage_accepted (m := ⟨f.event, seq⟩) ha
  rw [settled_hand, hp, h.tells f hf]

theorem Inv.current_item (h : σ.Inv sessionId) (hf : f ∈ σ.inFlight)
    (hl : σ.lastChange f.item.id = some f.number) (hi : i ∈ σ.data.itemsOf sessionId)
    (hid : f.item.id = i.id) : i.status = f.item.status := by
  refine h.current f hf hl i ?_
  rw [hid]
  exact (mem_iff_lookup h.itemIds).mp (Data.mem_itemsOf.mp hi).1

theorem Inv.number_eq (h : σ.Inv sessionId) {g : Flight} (hf : f ∈ σ.inFlight) (hg : g ∈ σ.inFlight)
    (hn : g.number = f.number) : g = f :=
  List.inj_on_of_nodup_map h.numbers hg hf hn

/-- Handing over what the page lets through. -/
theorem Inv.shown_accepted (h : σ.Inv sessionId) (hf : f ∈ σ.inFlight) {seq : Nat}
    (ha : σ.settled.Accepts seq) (hlast : ∃ g ∈ σ.inFlight, σ.lastChange f.item.id = some g.number)
    (hi : i ∈ σ.data.itemsOf sessionId) :
    (∃ g ∈ (σ.hand f seq).inFlight, g.item.id = i.id ∧ σ.lastChange i.id = some g.number) ∨
      (σ.hand f seq).settled.Shows i := by
  have hitems := h.accepted hf ha
  by_cases hid : f.item.id = i.id
  · obtain ⟨g, hg, hl⟩ := hlast
    by_cases hn : g.number = f.number
    · right
      have hstatus : i.status = f.item.status := by
        refine h.current_item hf ?_ hi hid
        rw [hl, hn]
      have hs := Page.Shows.setStatus_self (h.listed i hi)
      rw [← hid, hstatus] at hs
      exact hs.of_items hitems
    · rw [hid] at hl
      exact .inl ⟨g, mem_hand.mpr ⟨hg, hn⟩, h.own g hg _ hl, hl⟩
  · rcases h.shown i hi with ⟨g, hg, hgi, hl⟩ | hs
    · refine .inl ⟨g, mem_hand.mpr ⟨hg, fun hn => hid ?_⟩, hgi, hl⟩
      rw [← hgi, h.number_eq hf hg hn]
    · exact .inr ((hs.setStatus_other hid).of_items hitems)

theorem Inv.hand (h : σ.Inv sessionId) (hf : f ∈ σ.inFlight) {seq : Nat}
    (ho : if σ.settled.Accepts seq then ∃ g ∈ σ.inFlight, σ.lastChange f.item.id = some g.number
      else σ.lastChange f.item.id ≠ some f.number) : (σ.hand f seq).Inv sessionId where
  itemIds := h.itemIds
  numbers := h.numbers.sublist (List.filter_sublist.map _)
  flown g hg := h.flown g (mem_hand.mp hg).1
  last := h.last
  own g hg := h.own g (mem_hand.mp hg).1
  tells g hg := h.tells g (mem_hand.mp hg).1
  current g hg := h.current g (mem_hand.mp hg).1
  listed i hi := by
    obtain ⟨x, hx, hid⟩ := h.listed i hi
    by_cases ha : σ.settled.Accepts seq
    · rw [h.accepted hf ha]
      refine ⟨_, List.mem_map_of_mem hx, ?_⟩
      split <;> exact hid
    · rw [settled_hand, Page.onMessage_discarded (m := ⟨f.event, seq⟩) ha]
      exact ⟨x, hx, hid⟩
  shown i hi := by
    by_cases ha : σ.settled.Accepts seq
    · rw [if_pos ha] at ho
      exact h.shown_accepted hf ha ho hi
    · rw [if_neg ha] at ho
      rcases h.shown i hi with ⟨g, hg, hid, hlast⟩ | hs
      · refine .inl ⟨g, mem_hand.mpr ⟨hg, fun hn => ho ?_⟩, hid, hlast⟩
        obtain rfl := h.number_eq hf hg hn
        rw [hid]
        exact hlast
      · right
        rw [settled_hand, Page.onMessage_discarded (m := ⟨f.event, seq⟩) ha]
        exact hs

theorem Inv.step (h : σ.Inv sessionId) {x : Turn} (ho : σ.Orderly x)
    (hx : σ.step sessionId x = some σ') : σ'.Inv sessionId := by
  cases x with
  | commit x now =>
    simp only [Feed.step] at hx
    split at hx
    next i data hc =>
      split at hx
      next hs =>
        cases hx
        exact h.announce (ItemChange.commits h.itemIds hc)
      · cases hx
    · cases hx
  | stamp number =>
    cases hx
    exact h.stamp number
  | hand number =>
    simp only [Feed.step] at hx
    split at hx
    next f hf =>
      obtain ⟨seq, hseq, rfl⟩ := Option.map_eq_some_iff.mp hx
      have hm := List.mem_of_find?_eq_some hf
      have hn : f.number = number := by simpa using List.find?_some hf
      exact h.hand hm (ho f hm hn seq hseq)
    · cases hx
  | deliver =>
    simp only [Feed.step] at hx
    split at hx
    next m ms hc =>
      cases hx
      have hp : Feed.settled { σ with page := σ.page.onMessage m, channel := ms } = σ.settled := by
        rw [settled, settled, hc, Page.receive_cons]
      refine { h with listed := fun i hi => ?_, shown := fun i hi => ?_ }
      · rw [hp]
        exact h.listed i hi
      · rw [hp]
        exact h.shown i hi
    · cases hx
  | tick clock =>
    simp only [Feed.step] at hx
    split at hx
    · cases hx
      exact { h with }
    · cases hx

end Feed

section Convergence

open Feed

/-- Once all events have been delivered, the page shows what is committed. -/
theorem page_converges {sessionId : Uuid} {σ₀ σ : Feed} (h₀ : σ₀.Start sessionId)
    (hr : Runs sessionId Orderly σ₀ σ) (hf : σ.inFlight = []) (hc : σ.channel = []) :
    σ.Agrees sessionId := by
  have h : σ.Inv sessionId := hr.invariant h₀.inv fun _ _ _ hi ho hx => hi.step ho hx
  intro i hi
  rcases h.shown i hi with ⟨f, hm, -⟩ | hs
  · rw [hf] at hm
    cases hm
  · rw [settled, hc] at hs
    exact hs

/-- A session with two dishes on order, and its page. -/
def cafeFeed : Feed where
  data :=
    { sessions := [⟨10, 1, 2, .opened, none, 0, 0, none, none, none⟩]
      orders := [⟨11, 1, 10, 0⟩]
      items := [⟨12, 1, 11, 3, "Phở bò", 5000000, 10, 1, none, .pending, 0, none, none, none, none, none⟩,
        ⟨13, 1, 11, 3, "Phở bò", 5000000, 10, 1, none, .pending, 0, none, none, none, none, none⟩] }
  clock := 1000
  page := ⟨[⟨12, "Phở bò", 1, .pending⟩, ⟨13, "Phở bò", 1, .pending⟩], .opened, 0⟩

theorem cafeFeed_start : cafeFeed.Start 10 where
  itemIds := by decide
  agrees := by decide
  lastChange _ := rfl
  inFlight := rfl
  channel := rfl

/-- Two workers commit in one order and stamp in the other. -/
def cafeChanges : List Feed.Turn :=
  [.commit (.setStatus 12 .cooking 4 1) 5, .commit (.setStatus 13 .cooking 4 1) 6, .stamp 1,
    .tick 2000, .stamp 0]

theorem page_converges_cafe : ∃ σ, Runs 10 Orderly cafeFeed σ ∧ σ.commits = 2 ∧ σ.Agrees 10 := by
  obtain ⟨σ, hr, hq⟩ := Turns.exists_run (step 10) cafeFeed (fun σ x => σ.Orderly x)
    (fun σ => σ.commits = 2 ∧ σ.inFlight.isEmpty ∧ σ.channel.isEmpty)
    (cafeChanges ++ [.hand 1, .hand 0, .deliver, .deliver]) (fun _ _ h => of_decide_eq_true h)
    (by decide)
  obtain ⟨hn, hf, hc⟩ := of_decide_eq_true hq
  exact ⟨σ, hr, hn, page_converges cafeFeed_start hr (by simpa using hf) (by simpa using hc)⟩

/-- Handed over after the later stamp, the event of the other item is lost on the page. -/
theorem page_converges_fails : ¬ ∀ (sessionId : Uuid) (σ₀ σ : Feed), σ₀.Start sessionId →
    Runs sessionId (fun _ _ => True) σ₀ σ → σ.inFlight = [] → σ.channel = [] →
      σ.Agrees sessionId := by
  intro h
  obtain ⟨σ, hr, hq⟩ := Turns.exists_run (step 10) cafeFeed (fun _ _ => true)
    (fun σ => σ.inFlight.isEmpty ∧ σ.channel.isEmpty ∧ ¬ σ.Agrees 10)
    (cafeChanges ++ [.hand 0, .hand 1, .deliver, .deliver]) (fun _ _ _ => trivial) (by decide)
  obtain ⟨hf, hc, hn⟩ := of_decide_eq_true hq
  exact hn (h 10 cafeFeed σ cafeFeed_start hr (by simpa using hf) (by simpa using hc))

end Convergence

end QOrder
