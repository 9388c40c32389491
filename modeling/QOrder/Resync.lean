import QOrder.EventOrder

/-! The customer's page from its load on: the snapshot, the socket, which may drop and
is opened again without another snapshot, and the changes committed meanwhile. -/

namespace QOrder

open KeyedTable

inductive Socket
  | closed | connecting | accepted | subscribed
  deriving DecidableEq, Repr

/-- Changes are committed and published in one order. -/
structure Visit where
  data : Data
  clock : Nat
  /-- The answer to the page's `GET`, on its way. -/
  snapshot : Option Page := none
  page : Option Page := none
  socket : Socket := .closed
  channel : List Message := []
  /-- The events since the snapshot that never reach the page. -/
  lost : List RealtimeEvent := []

namespace Visit

inductive Turn
  | fetch | load
  | connect | accept | subscribe
  | change (x : ItemChange) (now : Timestamp)
  | deliver | drop
  | tick (clock : Nat)

variable (sessionId : Uuid) (σ : Visit)

/-- What `GET /t/{qr_token}/session` answers, as the page takes it over. -/
def snapshotOf (d : Data) : Option Page :=
  (lookup sessionId d.sessions).map fun session =>
    Page.ofSnapshot session ((Query.itemsOfSession sessionId).eval ⟨0, 0⟩ {} d)

def publish (event : RealtimeEvent) (data : Data) : Visit :=
  if σ.socket = .subscribed then
    { σ with data, channel := σ.channel ++ [⟨event, σ.clock⟩] }
  else { σ with data, lost := σ.lost ++ [event] }

def step : Turn → Option Visit
  | .fetch =>
    if σ.snapshot = none then
      (snapshotOf sessionId σ.data).map fun page => { σ with snapshot := some page, lost := [] }
    else none
  | .load => if σ.page = none then σ.snapshot.map fun page => { σ with page := some page } else none
  -- `enabled` holds once the snapshot is loaded; a reconnect takes the same way.
  | .connect =>
    if σ.page.isSome ∧ σ.socket = .closed then some { σ with socket := .connecting } else none
  | .accept => if σ.socket = .connecting then some { σ with socket := .accepted } else none
  | .subscribe => if σ.socket = .accepted then some { σ with socket := .subscribed } else none
  | .change x now =>
    match x.commit σ.data now with
    | some (i, data) =>
      if data.inSession sessionId i then some (σ.publish (x.event i) data) else none
    | none => none
  | .deliver =>
    match σ.channel with
    | m :: ms => some { σ with page := σ.page.map fun page => page.onMessage m, channel := ms }
    | [] => none
  | .drop =>
    if σ.socket = .closed then none
    else some { σ with
      socket := .closed, channel := [], lost := σ.lost ++ σ.channel.map Message.event }
  | .tick clock => if σ.clock ≤ clock then some { σ with clock } else none

abbrev Runs (allowed : Visit → Turn → Prop) : Visit → Visit → Prop :=
  Turns.Runs (step sessionId) allowed

/-- What the page knows, once its snapshot has been taken and the messages have arrived. -/
def known : Option Page := (σ.page.or σ.snapshot).map fun page => page.receive σ.channel

/-- The socket is subscribed only while no event since the snapshot has been lost, and a
message to the subscribed socket is newer for the page than all before it. -/
def Gapless : Turn → Prop
  | .subscribe => σ.lost = []
  | .change _ _ => σ.socket = .subscribed → ∀ page ∈ σ.known, page.Accepts σ.clock
  | _ => True

instance (x : Turn) : Decidable (σ.Gapless x) := by
  cases x <;> unfold Gapless <;> infer_instance

/-- The page shows every item of the session with its committed status. -/
def Current : Prop := ∃ page, σ.page = some page ∧ ∀ i ∈ σ.data.itemsOf sessionId, page.Shows i

/-- Before the page is opened. -/
structure Start : Prop where
  itemIds : UniqueKeys σ.data.items
  snapshot : σ.snapshot = none
  page : σ.page = none
  socket : σ.socket = .closed
  channel : σ.channel = []

structure Inv : Prop where
  itemIds : UniqueKeys σ.data.items
  loaded : σ.page.isSome → σ.snapshot.isSome
  opened : σ.socket ≠ .closed → σ.page.isSome
  idle : σ.socket ≠ .subscribed → σ.channel = []
  complete : σ.socket = .subscribed → σ.lost = []
  shown : σ.lost = [] → ∀ page ∈ σ.known, ∀ i ∈ σ.data.itemsOf sessionId, page.Shows i

variable {sessionId σ} {σ' : Visit} {x : ItemChange} {i i' : OrderItem} {d d' : Data} {now : Timestamp}

theorem Start.inv (h : σ.Start) : σ.Inv sessionId where
  itemIds := h.itemIds
  loaded := by simp [h.page]
  opened := by simp [h.socket]
  idle _ := h.channel
  complete := by simp [h.socket]
  shown := by simp [known, h.page, h.snapshot]

theorem shows_change {page : Page} (hk : UniqueKeys d.items) (hc : x.Commits d now i' d')
    (hs : ∀ i ∈ d.itemsOf sessionId, page.Shows i) (hi : i ∈ d'.itemsOf sessionId) :
    (page.setStatus i'.id i'.status).Shows i := by
  rcases hc.mem_itemsOf hk hi with rfl | ⟨hne, hi⟩
  · obtain ⟨j, hj, hid⟩ := hc.before (Data.mem_itemsOf.mp hi).2
    have hx := (hs j hj).1
    rw [hid] at hx
    exact .setStatus_self hx
  · exact (hs i hi).setStatus_other hne.symm

theorem shows_snapshotOf {page : Page} (hk : UniqueKeys d.items) (hp : snapshotOf sessionId d = some page)
    (hi : i ∈ d.itemsOf sessionId) : page.Shows i := by
  obtain ⟨session, -, rfl⟩ := Option.map_eq_some_iff.mp hp
  have hmem {j : OrderItem} : j ∈ (Query.itemsOfSession sessionId).eval ⟨0, 0⟩ {} d ↔
      j ∈ d.itemsOf sessionId := List.mem_mergeSort
  refine Page.shows_ofSnapshot (hmem.mpr hi) fun j hj hid => ?_
  have hjm := (Data.mem_itemsOf.mp (hmem.mp hj)).1
  exact eq_of_key_eq hk hjm (Data.mem_itemsOf.mp hi).1 hid

theorem Inv.publish (h : σ.Inv sessionId) (hc : x.Commits σ.data now i' d')
    (hg : σ.socket = .subscribed → ∀ page ∈ σ.known, page.Accepts σ.clock) :
    (σ.publish (x.event i') d').Inv sessionId := by
  by_cases hs : σ.socket = .subscribed
  · have hp : σ.publish (x.event i') d' =
        { σ with data := d', channel := σ.channel ++ [⟨x.event i', σ.clock⟩] } := if_pos hs
    rw [hp]
    refine { h with
      itemIds := hc.itemIds h.itemIds
      idle := fun hn => absurd hs hn
      shown := fun hl page hpage i hi => ?_ }
    obtain ⟨p, hp, rfl⟩ := Option.map_eq_some_iff.mp hpage
    have hknown : p.receive σ.channel ∈ σ.known := by
      simp only [known, Option.mem_def, Option.map_eq_some_iff]
      exact ⟨p, hp, rfl⟩
    have hitems := Page.onMessage_accepted (m := ⟨x.event i', σ.clock⟩) (hg hs _ hknown)
    have hshown := shows_change h.itemIds hc (h.shown hl _ hknown) hi
    rw [Page.receive_snoc, hitems, hc.handle]
    exact hshown.of_items rfl
  · have hp : σ.publish (x.event i') d' =
        { σ with data := d', lost := σ.lost ++ [x.event i'] } := if_neg hs
    rw [hp]
    refine { h with
      itemIds := hc.itemIds h.itemIds
      complete := fun hn => absurd hn hs
      shown := fun hl => ?_ }
    simp at hl

theorem Inv.step (h : σ.Inv sessionId) {x : Turn} (hg : σ.Gapless x)
    (hx : σ.step sessionId x = some σ') : σ'.Inv sessionId := by
  cases x with
  | fetch =>
    simp only [Visit.step] at hx
    split at hx
    next hn =>
      obtain ⟨page, hp, rfl⟩ := Option.map_eq_some_iff.mp hx
      have hpage : σ.page = none := by
        by_contra hne
        have := h.loaded (Option.isSome_iff_ne_none.mpr hne)
        simp [hn] at this
      have hclosed : σ.socket = .closed := by
        by_contra hne
        have := h.opened hne
        simp [hpage] at this
      have hchannel := h.idle (by simp [hclosed])
      refine { h with loaded := fun _ => rfl, complete := fun _ => rfl, shown := fun _ p hp' i hi => ?_ }
      have he : page = p := by simpa [known, hpage, hchannel] using hp'
      rw [← he]
      exact shows_snapshotOf h.itemIds hp hi
    · cases hx
  | load =>
    simp only [Visit.step] at hx
    split at hx
    next hn =>
      obtain ⟨page, hp, rfl⟩ := Option.map_eq_some_iff.mp hx
      refine { h with loaded := fun _ => by simp [hp], opened := fun _ => rfl, shown := ?_ }
      simpa [known, hn, hp] using h.shown
    · cases hx
  | connect =>
    simp only [Visit.step] at hx
    split at hx
    next hn =>
      cases hx
      exact { h with opened := fun _ => hn.1, idle := fun _ => h.idle (by simp [hn.2]), complete := by simp }
    · cases hx
  | accept =>
    simp only [Visit.step] at hx
    split at hx
    next hn =>
      cases hx
      exact { h with opened := fun _ => h.opened (by simp [hn]), idle := fun _ => h.idle (by simp [hn]), complete := by simp }
    · cases hx
  | subscribe =>
    simp only [Visit.step] at hx
    split at hx
    next hn =>
      cases hx
      exact { h with opened := fun _ => h.opened (by simp [hn]), idle := by simp, complete := fun _ => hg }
    · cases hx
  | change x now =>
    simp only [Visit.step] at hx
    split at hx
    next i d hc =>
      split at hx
      · cases hx
        exact h.publish (ItemChange.commits h.itemIds hc) hg
      · cases hx
    · cases hx
  | deliver =>
    simp only [Visit.step] at hx
    split at hx
    next m ms hc =>
      cases hx
      have hs : σ.socket = .subscribed := by
        by_contra hne
        have := h.idle hne
        simp [hc] at this
      obtain ⟨page, hp⟩ := Option.isSome_iff_exists.mp (h.opened (by simp [hs]))
      refine { h with loaded := fun _ => h.loaded (by simp [hp]), opened := fun _ => by simp [hp],
                      idle := fun hn => absurd hs hn, shown := ?_ }
      simpa [known, hp, hc] using h.shown
    · cases hx
  | drop =>
    simp only [Visit.step] at hx
    split at hx
    · cases hx
    next hn =>
      cases hx
      refine { h with opened := by simp, idle := fun _ => rfl, complete := by simp, shown := ?_ }
      intro hl
      obtain ⟨hl, hc⟩ := List.append_eq_nil_iff.mp hl
      have hc : σ.channel = [] := by simpa using hc
      simpa [known, hc] using h.shown hl
  | tick clock =>
    simp only [Visit.step] at hx
    split at hx
    · cases hx
      exact { h with }
    · cases hx

end Visit

section Resync

open Visit

/-- Whenever the socket is subscribed and no message is on its way, the page is current. -/
theorem page_current {sessionId : Uuid} {σ₀ σ : Visit} (h₀ : σ₀.Start)
    (hr : Runs sessionId Gapless σ₀ σ) (hs : σ.socket = .subscribed) (hc : σ.channel = []) :
    σ.Current sessionId := by
  have h : σ.Inv sessionId := hr.invariant h₀.inv fun _ _ _ hi hg hx => hi.step hg hx
  obtain ⟨page, hp⟩ := Option.isSome_iff_exists.mp (h.opened (by simp [hs]))
  refine ⟨page, hp, h.shown (h.complete hs) page ?_⟩
  simp [known, hp, hc]

def cafeVisit : Visit :=
  { data := { cafeFeed.data with items := cafeFeed.data.items.take 1 }, clock := 1000 }

theorem cafeVisit_start : cafeVisit.Start where
  itemIds := by decide
  snapshot := rfl
  page := rfl
  socket := rfl
  channel := rfl

/-- The page on its way to `cafeVisit`. -/
def cafeFetched : Visit :=
  { cafeVisit with snapshot := some ⟨[⟨12, "Phở bò", 1, .pending⟩], .opened, 0⟩ }

theorem cafe_fetch : step 10 cafeVisit .fetch = some cafeFetched := by
  have hi : cafeVisit.data.itemsOf 10 = cafeVisit.data.items := by decide
  have hs : cafeVisit.data.items.mergeSort (fun i j => i.requestedAt ≤ j.requestedAt) =
      cafeVisit.data.items := List.mergeSort_singleton _
  have hp : snapshotOf 10 cafeVisit.data = cafeFetched.snapshot := by
    simp only [snapshotOf, Query.eval, hi, hs]
    decide
  have hn : cafeVisit.snapshot = none := rfl
  simp only [step, hn, hp, if_true]
  rfl

def cafeSubscribed : List Visit.Turn := [.connect, .accept, .subscribe]

/-- A dish is cooked while the page is connected; the socket then drops and comes back. -/
theorem page_current_cafe : ∃ σ, Runs 10 Gapless cafeVisit σ ∧ σ.lost = [] ∧ σ.Current 10 := by
  obtain ⟨σ, hr, hq⟩ := Turns.exists_run (step 10) cafeFetched (fun σ x => σ.Gapless x)
    (fun σ => σ.lost.isEmpty ∧ σ.socket = .subscribed ∧ σ.channel.isEmpty)
    ([.load] ++ cafeSubscribed ++ [.change (.setStatus 12 .cooking 4 1) 5, .deliver, .drop] ++
      cafeSubscribed) (fun _ _ h => of_decide_eq_true h) (by decide)
  obtain ⟨hl, hs, hc⟩ := of_decide_eq_true hq
  have hr : Runs 10 Gapless cafeVisit σ := .head (.turn .fetch trivial cafe_fetch) hr
  exact ⟨σ, hr, by simpa using hl, page_current cafeVisit_start hr hs (by simpa using hc)⟩

/-- A dish cooked while the socket is down stays pending on the page. -/
theorem page_current_fails : ¬ ∀ (sessionId : Uuid) (σ₀ σ : Visit), σ₀.Start →
    Runs sessionId (fun _ _ => True) σ₀ σ → σ.socket = .subscribed → σ.channel = [] →
      σ.Current sessionId := by
  intro h
  obtain ⟨σ, hr, hq⟩ := Turns.exists_run (step 10) cafeFetched (fun _ _ => true)
    (fun σ => σ.socket = .subscribed ∧ σ.channel.isEmpty ∧
      ∀ page ∈ σ.page, ∃ i ∈ σ.data.itemsOf 10, ¬ page.Shows i)
    ([.load] ++ cafeSubscribed ++ [.drop, .change (.setStatus 12 .cooking 4 1) 5] ++
      cafeSubscribed) (fun _ _ _ => trivial) (by decide)
  obtain ⟨hs, hc, hn⟩ := of_decide_eq_true hq
  obtain ⟨page, hp, hshown⟩ := h 10 cafeVisit σ cafeVisit_start
    (.head (.turn .fetch trivial cafe_fetch) hr) hs (by simpa using hc)
  obtain ⟨i, hi, hi'⟩ := hn page hp
  exact hi' (hshown i hi)

end Resync

end QOrder
