import QOrder.Effects

/-! The kitchen's screen. `KitchenBoard` keeps a replica of the board that the server lists
and changes it by the messages of the kitchen's channel. -/

namespace QOrder

open KeyedTable Concurrency

/-- A dish on the screen. A field that no message has brought is undefined. -/
structure BoardItem where
  id : Uuid
  orderId : Option Uuid
  menuItemId : Option Uuid
  nameSnapshot : Option String
  priceSnapshot : Option Money
  prepTimeSnapshot : Option Nat
  quantity : Option Nat
  note : Option (Option String)
  status : Option OrderItemStatus
  requestedAt : Option Timestamp
  deriving DecidableEq, Repr

def OrderItem.boardItem (i : OrderItem) : BoardItem where
  id := i.id
  orderId := some i.orderId
  menuItemId := some i.menuItemId
  nameSnapshot := some i.nameSnapshot
  priceSnapshot := some i.priceSnapshot
  prepTimeSnapshot := some i.prepTimeSnapshot
  quantity := some i.quantity
  note := some i.note
  status := some i.status
  requestedAt := some i.requestedAt

def PublishedItem.boardItem (i : PublishedItem) : BoardItem where
  id := i.id
  orderId := none
  menuItemId := none
  nameSnapshot := some i.nameSnapshot
  priceSnapshot := none
  prepTimeSnapshot := none
  quantity := some i.quantity
  note := none
  status := some i.status
  requestedAt := none

namespace KitchenBoard

abbrev Replica := List BoardItem

/-- What `loadBoard` sets. -/
def loadBoard (d : Data) (restaurantId : Uuid) : Replica :=
  (Kitchen.getKitchenBoard d restaurantId).map OrderItem.boardItem

def removeItem (items : Replica) (id : Uuid) : Replica := items.filter fun i => i.id ≠ id

/-- Merges the fields of an `item.updated` into the item, if the screen has it. -/
def mergeItem (items : Replica) (id : Uuid) (status : OrderItemStatus) (orderId : Uuid) : Replica :=
  items.modify (items.findIdx fun i => i.id = id) fun i =>
    { i with status := some status, orderId := some orderId }

/-- `loaded` is what the server lists when the handler loads the board again. -/
def handleWsEvent (loaded items : Replica) : RealtimeEvent → Replica
  | .itemUpdated id status orderId =>
    if status = .served ∨ status = .cancelled then removeItem items id
    else mergeItem items id status orderId
  | .itemCancelled id _ _ _ => removeItem items id
  | .orderCreated _ _ newItems => items ++ newItems.map PublishedItem.boardItem
  | .sessionClosed _ _ _ _ | .sessionAbandoned _ _ => loaded
  | .staffCallNew _ _ _ _ _ | .staffCallAck _ _ _ _ _ _ | .sessionRestored _ _ => items

def receive (loaded : Replica) (events : List RealtimeEvent) (items : Replica) : Replica :=
  events.foldl (handleWsEvent loaded) items

end KitchenBoard

/-- What the screen shows of an item; its overdue level depends on nothing else. -/
def BoardItem.shown (i : BoardItem) :
    Uuid × Option OrderItemStatus × Option Uuid × Option Timestamp × Option Nat :=
  (i.id, i.status, i.orderId, i.requestedAt, i.prepTimeSnapshot)

namespace KitchenBoard

/-- The screen has every item of the board once, and shows it as it is. -/
structure Agrees (items : Replica) (d : Data) (restaurantId : Uuid) : Prop where
  ids : (items.map BoardItem.id).Nodup
  shown : (items.map BoardItem.shown).Perm ((loadBoard d restaurantId).map BoardItem.shown)

section Lists

variable {owner : Uuid → Uuid} {d d' : Data} {items : Replica} {restaurantId id : Uuid}
  {status : OrderItemStatus} {orderId : Uuid} {i i' : OrderItem} {b : BoardItem}

theorem mem_loadBoard : b ∈ loadBoard d restaurantId ↔
    ∃ i ∈ d.items, Kitchen.active i restaurantId = true ∧ i.boardItem = b := by
  simp [loadBoard, Kitchen.getKitchenBoard, and_assoc]

theorem nodup_loadBoard (hk : UniqueKeys d.items) :
    ((loadBoard d restaurantId).map BoardItem.id).Nodup := by
  have hid : (loadBoard d restaurantId).map BoardItem.id =
      (Kitchen.getKitchenBoard d restaurantId).map OrderItem.id := by
    rw [loadBoard, List.map_map]
    rfl
  have hperm : (Kitchen.getKitchenBoard d restaurantId).Perm
      (d.items.filter fun i => Kitchen.active i restaurantId) := List.mergeSort_perm ..
  rw [hid]
  refine (hperm.map OrderItem.id).nodup_iff.mpr ?_
  exact hk.sublist (List.filter_sublist.map _)

theorem agrees_loadBoard (hk : UniqueKeys d.items) :
    Agrees (loadBoard d restaurantId) d restaurantId :=
  ⟨nodup_loadBoard hk, .refl _⟩

theorem nodup_shown (h : (items.map BoardItem.id).Nodup) : (items.map BoardItem.shown).Nodup := by
  have hid : (items.map BoardItem.shown).map Prod.fst = items.map BoardItem.id := by
    rw [List.map_map]
    rfl
  exact .of_map Prod.fst (hid ▸ h)

/-- Lists without repeated ids agree when they show the same. -/
theorem agrees_iff (hk : UniqueKeys d.items) : Agrees items d restaurantId ↔
    (items.map BoardItem.id).Nodup ∧ ∀ x, x ∈ items.map BoardItem.shown ↔
      ∃ i ∈ d.items, Kitchen.active i restaurantId = true ∧ i.boardItem.shown = x := by
  have hmem (x) : x ∈ (loadBoard d restaurantId).map BoardItem.shown ↔
      ∃ i ∈ d.items, Kitchen.active i restaurantId = true ∧ i.boardItem.shown = x := by
    simp [mem_loadBoard, and_assoc]
  constructor
  · intro h
    exact ⟨h.ids, fun x => h.shown.mem_iff.trans (hmem x)⟩
  · rintro ⟨hids, hx⟩
    refine ⟨hids, (List.perm_ext_iff_of_nodup (nodup_shown hids) (nodup_shown (nodup_loadBoard hk))).mpr ?_⟩
    exact fun x => (hx x).trans (hmem x).symm

theorem mergeItem_eq_map (h : (items.map BoardItem.id).Nodup) : mergeItem items id status orderId =
    items.map fun i => if i.id = id then { i with status := some status, orderId := some orderId } else i := by
  unfold mergeItem
  induction items with
  | nil => rfl
  | cons i items ih =>
    obtain ⟨hi, hn⟩ := List.nodup_cons.mp h
    by_cases hid : i.id = id
    · have hrest : ∀ j ∈ items, (if j.id = id then
          { j with status := some status, orderId := some orderId } else j) = j := by
        intro j hj
        refine if_neg fun he => hi ?_
        rw [hid, ← he]
        exact List.mem_map_of_mem hj
      have hzero : (i :: items).findIdx (fun j => j.id = id) = 0 := by simp [List.findIdx_cons, hid]
      rw [hzero, List.modify_zero_cons, List.map_cons, List.map_congr_left hrest, if_pos hid]
      simp
    · have hsucc : (i :: items).findIdx (fun j => j.id = id) =
          items.findIdx (fun j => j.id = id) + 1 := by simp [List.findIdx_cons, hid]
      rw [hsucc, List.modify_succ_cons, List.map_cons, if_neg hid, ih hn]

theorem shown_id {x : BoardItem} (h : b.shown = x.shown) : b.id = x.id := congrArg Prod.fst h

/-- The item leaves the board. -/
theorem Agrees.removed {s : TableSession} (ha : Agrees items d restaurantId)
    (hm : ItemMoved d d' i i' s) (hk : UniqueKeys d.items) (hact : Kitchen.active i' restaurantId = false) :
    Agrees (removeItem items i'.id) d' restaurantId := by
  obtain ⟨now, hmove⟩ := hm.move
  obtain ⟨hids, hx⟩ := (agrees_iff hk).mp ha
  refine (agrees_iff (hm.itemIds hk)).mpr ⟨hids.sublist (List.filter_sublist.map _), fun x => ?_⟩
  have hleft : x ∈ (removeItem items i'.id).map BoardItem.shown ↔
      x ∈ items.map BoardItem.shown ∧ x.1 ≠ i'.id := by
    simp only [removeItem, List.mem_map, List.mem_filter, decide_eq_true_eq]
    constructor
    · rintro ⟨b, ⟨hb, hne⟩, rfl⟩
      exact ⟨⟨b, hb, rfl⟩, hne⟩
    · rintro ⟨⟨b, hb, rfl⟩, hne⟩
      exact ⟨b, ⟨hb, hne⟩, rfl⟩
  rw [hleft, hx x, hmove.id_eq]
  constructor
  · rintro ⟨⟨j, hj, hjact, rfl⟩, hne⟩
    exact ⟨j, (hm.mem_items hk).mpr (.inr ⟨hj, hne⟩), hjact, rfl⟩
  · rintro ⟨j, hj, hjact, rfl⟩
    rcases (hm.mem_items hk).mp hj with rfl | ⟨hj, hne⟩
    · rw [hact] at hjact
      cases hjact
    · exact ⟨⟨j, hj, hjact, rfl⟩, hne⟩

/-- The item stays on the board with another status. -/
theorem Agrees.merged {s : TableSession} (ha : Agrees items d restaurantId)
    (hm : ItemMoved d d' i i' s) (hk : UniqueKeys d.items) (hact : Kitchen.active i restaurantId = true)
    (hact' : Kitchen.active i' restaurantId = true) (hkept : i'.requestedAt = i.requestedAt ∧
      i'.prepTimeSnapshot = i.prepTimeSnapshot) :
    Agrees (mergeItem items i'.id i'.status i'.orderId) d' restaurantId := by
  obtain ⟨now, hmove⟩ := hm.move
  obtain ⟨hids, hx⟩ := (agrees_iff hk).mp ha
  have hi : i ∈ d.items := mem_of_lookup hm.before
  rw [mergeItem_eq_map hids]
  refine (agrees_iff (hm.itemIds hk)).mpr ⟨?_, fun x => ?_⟩
  · rw [List.map_map]
    have hsame : BoardItem.id ∘ (fun b : BoardItem => if b.id = i'.id then
        { b with status := some i'.status, orderId := some i'.orderId } else b) = BoardItem.id := by
      funext b
      simp only [Function.comp]
      split <;> rfl
    rwa [hsame]
  have changed {b : BoardItem} (hb : b.shown = i.boardItem.shown) :
      ({ b with status := some i'.status, orderId := some i'.orderId } : BoardItem).shown =
        i'.boardItem.shown := by
    simp only [BoardItem.shown, OrderItem.boardItem, Prod.mk.injEq] at hb ⊢
    rw [hkept.1, hkept.2, hmove.id_eq]
    exact ⟨hb.1, trivial, trivial, hb.2.2.2.1, hb.2.2.2.2⟩
  constructor
  · intro hmem
    simp only [List.mem_map] at hmem
    obtain ⟨_, ⟨b, hb, rfl⟩, rfl⟩ := hmem
    obtain ⟨j, hj, hjact, hjs⟩ := (hx b.shown).mp (List.mem_map_of_mem hb)
    have hid : j.id = b.id := shown_id hjs
    by_cases he : b.id = i'.id
    · rw [if_pos he]
      obtain rfl : j = i := eq_of_key_eq hk hj hi (by rw [key_item, key_item, hid, he, hmove.id_eq])
      exact ⟨i', (hm.mem_items hk).mpr (.inl rfl), hact', (changed hjs.symm).symm⟩
    · rw [if_neg he]
      have hne : j.id ≠ i.id := by rwa [hid, ← hmove.id_eq]
      exact ⟨j, (hm.mem_items hk).mpr (.inr ⟨hj, hne⟩), hjact, hjs⟩
  · rintro ⟨j, hj, hjact, rfl⟩
    rcases (hm.mem_items hk).mp hj with rfl | ⟨hj, hne⟩
    · obtain ⟨b, hb, hbs⟩ := List.mem_map.mp ((hx i.boardItem.shown).mpr ⟨i, hi, hact, rfl⟩)
      have hid : b.id = j.id := (shown_id hbs).trans hmove.id_eq.symm
      refine List.mem_map.mpr ⟨_, List.mem_map_of_mem hb, ?_⟩
      rw [if_pos hid]
      exact changed hbs
    · obtain ⟨b, hb, hbs⟩ := List.mem_map.mp ((hx j.boardItem.shown).mpr ⟨j, hj, hjact, rfl⟩)
      have hid : b.id ≠ i'.id := by
        rw [shown_id hbs, hmove.id_eq]
        exact hne
      refine List.mem_map.mpr ⟨_, List.mem_map_of_mem hb, ?_⟩
      rw [if_neg hid]
      exact hbs

/-- An item that comes back to the board is not on the screen. -/
theorem Agrees.not_undone {s : TableSession} (ha : Agrees items d restaurantId)
    (hm : ItemMoved d d' i i' s) (hk : UniqueKeys d.items) (hact : Kitchen.active i restaurantId = false)
    (hact' : Kitchen.active i' restaurantId = true) :
    mergeItem items i'.id i'.status i'.orderId = items ∧ ¬ Agrees items d' restaurantId := by
  obtain ⟨now, hmove⟩ := hm.move
  obtain ⟨hids, hx⟩ := (agrees_iff hk).mp ha
  have habsent : ∀ b ∈ items, b.id ≠ i'.id := by
    intro b hb he
    obtain ⟨j, hj, hjact, hjs⟩ := (hx b.shown).mp (List.mem_map_of_mem hb)
    have hid : j.id = i.id := by rw [← hmove.id_eq, ← he]; exact shown_id hjs
    obtain rfl := eq_of_key_eq hk hj (mem_of_lookup hm.before) hid
    rw [hact] at hjact
    cases hjact
  constructor
  · rw [mergeItem_eq_map hids, List.map_congr_left fun b hb => if_neg (habsent b hb), List.map_id']
  · intro ha'
    obtain ⟨-, hx'⟩ := (agrees_iff (hm.itemIds hk)).mp ha'
    obtain ⟨b, hb, hbs⟩ := List.mem_map.mp
      ((hx' i'.boardItem.shown).mpr ⟨i', (hm.mem_items hk).mpr (.inl rfl), hact', rfl⟩)
    exact habsent b hb (shown_id hbs)

theorem Agrees.congr (ha : Agrees items d restaurantId) (hd : d'.items = d.items) :
    Agrees items d' restaurantId := by
  refine ⟨ha.ids, ?_⟩
  rw [loadBoard, Kitchen.getKitchenBoard, hd]
  exact ha.shown

/-- A dish whose order is unknown is not one of the board. -/
theorem Agrees.order_known (ha : Agrees items d restaurantId) (hb : b ∈ items) : b.orderId.isSome := by
  have hmem := ha.shown.mem_iff.mp (List.mem_map_of_mem hb)
  obtain ⟨x, hx, hs⟩ := List.mem_map.mp hmem
  obtain ⟨i, -, -, rfl⟩ := mem_loadBoard.mp hx
  have ho : b.orderId = some i.orderId := congrArg (fun x => x.2.2.1) hs.symm
  rw [ho]
  rfl

end Lists

end KitchenBoard

section Operations

open KitchenBoard

variable {owner : Uuid → Uuid} {r : Request} {D : Deployment owner} {p : Clients 1}
  {l : List (Event 1)} {e : Event 1} {h : Holding} {i i' : OrderItem} {s : TableSession}
  {channel : Channel} {event : RealtimeEvent} {restaurantId : Uuid} {items : Replica}

theorem OrderItem.Move.kept {now : Timestamp} (hm : i.Move now i') :
    i'.requestedAt = i.requestedAt ∧ i'.prepTimeSnapshot = i.prepTimeSnapshot := by
  cases hm <;> exact ⟨rfl, rfl⟩

/-- Only an undo brings an item back to the board. -/
theorem OrderItem.Move.active {now : Timestamp} (hm : i.Move now i')
    (ha : Kitchen.active i' restaurantId = true) :
    Kitchen.active i restaurantId = true ∧ i'.status ≠ .pending ∨
      Kitchen.active i restaurantId = false ∧ i'.status = .pending := by
  simp only [Kitchen.active, hm.restaurantId_eq, Bool.and_eq_true, Bool.and_eq_false_iff] at ha ⊢
  cases hm with
  | cook h => exact .inl ⟨⟨ha.1, by simp [h, OrderItemStatus.unserved]⟩, by simp⟩
  | ready h =>
    refine .inl ⟨⟨ha.1, ?_⟩, by simp⟩
    rcases h with h | h <;> simp [h, OrderItemStatus.unserved]
  | serve _ h => cases ha.2
  | undo h => exact .inr ⟨.inr (by simp [h, OrderItemStatus.unserved]), rfl⟩
  | cancel _ _ h => cases ha.2

/-- What the handler makes of the message about a changed item. -/
theorem handle_moved {loaded : Replica} (ha : (Holding.moved i i' s).Announces channel event)
    (items : Replica) : handleWsEvent loaded items event =
      if Kitchen.active i' i'.restaurantId then mergeItem items i'.id i'.status i'.orderId
      else removeItem items i'.id := by
  have hactive : Kitchen.active i' i'.restaurantId = true ↔
      ¬ (i'.status = .served ∨ i'.status = .cancelled) := by
    cases hs : i'.status <;> simp [Kitchen.active, OrderItemStatus.unserved, hs]
  obtain ⟨-, rfl | ⟨by_, orderId, rfl, hc, -⟩⟩ := ha
  · by_cases hs : i'.status = .served ∨ i'.status = .cancelled
    · rw [if_neg fun h => hactive.mp h hs]
      exact if_pos hs
    · rw [if_pos (hactive.mpr hs)]
      exact if_neg hs
  · rw [if_neg fun h => hactive.mp h (.inr hc)]
    rfl

theorem handle_reload {loaded : Replica} {items₀ : List OrderItem} {kind : Leave} {stage : Stage}
    (ha : (Holding.leaving s items₀ kind stage).Announces channel event) (items : Replica) :
    handleWsEvent loaded items event = loaded := by
  cases kind with
  | close =>
    obtain ⟨-, closedAt, rfl⟩ := ha
    rfl
  | abandon =>
    obtain ⟨-, rfl⟩ := ha
    rfl

theorem handle_other {loaded : Replica} (ha : h.Announces channel event) (hk : h.changesItems = false)
    (items : Replica) : handleWsEvent loaded items event = items := by
  cases h with
  | moved | leaving | ordering | ordered => cases hk
  | reopening s =>
    obtain ⟨-, rfl⟩ := ha
    rfl
  | calling s c =>
    obtain ⟨-, tableId, status, createdAt, rfl⟩ := ha
    rfl
  | acking c c' =>
    obtain ⟨-, tableId, status, at_, by_, rfl⟩ := ha
    rfl
  | _ => exact ha.elim

theorem mergeItem_twice (items : Replica) (id : Uuid) (status : OrderItemStatus) (orderId : Uuid) :
    mergeItem (mergeItem items id status orderId) id status orderId = mergeItem items id status orderId := by
  have hsame (l : Replica) : (l.modify (l.findIdx fun i => i.id = id) fun i =>
      { i with status := some status, orderId := some orderId }).findIdx (fun i => i.id = id) =
        l.findIdx fun i => i.id = id := by
    induction l with
    | nil => rfl
    | cons b l ih =>
      by_cases hb : b.id = id
      · simp [List.findIdx_cons, hb]
      · simp [List.findIdx_cons, hb, ih]
  rw [mergeItem, mergeItem, hsame, List.modify_modify_eq]
  rfl

theorem removeItem_twice (items : Replica) (id : Uuid) :
    removeItem (removeItem items id) id = removeItem items id := by
  simp [removeItem]

theorem replica_moved {itemId : Uuid} (hr : D.Reaches (fun _ => r) p) (hk : r.itemOf = some itemId)
    (hm : messagesOn (.kitchen restaurantId) p.state.history ≠ []) (ha : Agrees items D.data restaurantId)
    (loaded : Replica) : Agrees (receive loaded (messagesOn (.kitchen restaurantId) p.state.history) items)
      p.state.data restaurantId ↔ r.isUndo = false := by
  obtain ⟨i, i', s, l, hmoved, hof, -, hevents⟩ := hr.sent_moved hk hm
  have hundo := hof.undo
  obtain ⟨now, hmove⟩ := hmoved.move
  have hrestaurant : i'.restaurantId = restaurantId := by
    obtain ⟨event, hevent⟩ := List.exists_mem_of_ne_nil _ hm
    exact (hevents event hevent).1.symm
  have hactive : Kitchen.active i' restaurantId = i'.status.unserved := by
    simp [Kitchen.active, hrestaurant]
  have handles := fun event hevent => @handle_moved _ _ _ _ _ loaded (hevents event hevent)
  rw [hrestaurant] at handles
  cases hact : Kitchen.active i' restaurantId with
  | false =>
    have hfold : receive loaded (messagesOn (.kitchen restaurantId) p.state.history) items =
        removeItem items i'.id := by
      refine foldl_same (g := fun items => removeItem items i'.id) hm (fun event hevent items => ?_)
        (fun items => removeItem_twice items _) items
      rw [handles event hevent, hact, if_neg Bool.false_ne_true]
    have hpending : i'.status ≠ .pending := by
      intro hp
      rw [hactive, hp] at hact
      cases hact
    rw [hfold]
    refine iff_of_true (ha.removed hmoved D.ok.itemIds hact) ?_
    rw [← Bool.not_eq_true, hundo]
    exact hpending
  | true =>
    have hfold : receive loaded (messagesOn (.kitchen restaurantId) p.state.history) items =
        mergeItem items i'.id i'.status i'.orderId := by
      refine foldl_same (g := fun items => mergeItem items i'.id i'.status i'.orderId) hm
        (fun event hevent items => ?_) (fun items => mergeItem_twice items ..) items
      rw [handles event hevent, if_pos hact]
    rw [hfold, ← Bool.not_eq_true, hundo]
    rcases hmove.active hact with ⟨hbefore, hp⟩ | ⟨hbefore, hp⟩
    · exact iff_of_true (ha.merged hmoved D.ok.itemIds hbefore hact hmove.kept) hp
    · obtain ⟨hsame, hnot⟩ := ha.not_undone hmoved D.ok.itemIds hbefore hact
      rw [hsame]
      exact iff_of_false hnot fun h => h hp

/-- A dish of a new order reaches the screen without its order. -/
theorem replica_ordered {qrToken : String} {body : CreateOrderRequest}
    (hr : D.Reaches (fun _ => .createOrder qrToken body) p)
    (hm : messagesOn (.kitchen restaurantId) p.state.history ≠ []) (loaded : Replica) :
    ¬ Agrees (receive loaded (messagesOn (.kitchen restaurantId) p.state.history) items)
      p.state.data restaurantId := by
  have hevents : ∀ event ∈ messagesOn (.kitchen restaurantId) p.state.history,
      ∃ orderId sessionId published, event = .orderCreated orderId sessionId published ∧ published ≠ [] := by
    intro event hevent
    obtain ⟨l₁, e, l₂, h, hh, hc, ha⟩ := hr.sent hevent
    have hj := hc.justified
    cases h with
    | ordering | ordered =>
      obtain ⟨-, published, rfl, hne, -⟩ := ha
      exact ⟨_, _, published, rfl, hne⟩
    | opening s => exact ha.elim
    | leaving => exact hj.1.elim
    | _ => exact hj.elim
  obtain ⟨events, event, hlast⟩ := List.eq_nil_or_concat _ |>.resolve_left hm
  rw [List.concat_eq_append] at hlast
  obtain ⟨orderId, sessionId, published, rfl, hne⟩ := hevents event (by rw [hlast]; simp)
  obtain ⟨x, hx⟩ := List.exists_mem_of_ne_nil _ hne
  intro ha
  rw [hlast, receive, List.foldl_append] at ha
  have hmem := ha.order_known (b := x.boardItem) (List.mem_append_right _ (List.mem_map_of_mem hx))
  cases hmem

theorem replica_kept (hr : D.Reaches (fun _ => r) p)
    (hk : ∀ l h, Justified (n := 1) l h r → h.changesItems = false)
    (ha : Agrees items D.data restaurantId) (loaded : Replica) :
    Agrees (receive loaded (messagesOn (.kitchen restaurantId) p.state.history) items)
      p.state.data restaurantId := by
  have hevents : ∀ event ∈ messagesOn (.kitchen restaurantId) p.state.history, ∀ items,
      handleWsEvent loaded items event = items := by
    intro event hevent
    obtain ⟨l₁, e, l₂, h, hh, hc, hann⟩ := hr.sent hevent
    exact handle_other hann (hk _ _ hc.justified)
  have hfold : receive loaded (messagesOn (.kitchen restaurantId) p.state.history) items = items := by
    by_cases hm : messagesOn (.kitchen restaurantId) p.state.history = []
    · rw [hm]
      rfl
    · exact foldl_same (g := id) hm hevents (fun _ => rfl) items
  rw [hfold]
  exact ha.congr (hr.items_kept hk).1

/-- Messages about sessions that leave: the board is loaded again. -/
theorem replica_reloaded (hr : D.Reaches (fun _ => r) p)
    (hk : ∀ event ∈ messagesOn (.kitchen restaurantId) p.state.history, ∃ s items kind stage,
      (Holding.leaving s items kind stage).Announces (.kitchen restaurantId) event)
    (hm : messagesOn (.kitchen restaurantId) p.state.history ≠ []) :
    Agrees (receive (loadBoard p.state.data restaurantId)
      (messagesOn (.kitchen restaurantId) p.state.history) items) p.state.data restaurantId := by
  have hfold : receive (loadBoard p.state.data restaurantId)
      (messagesOn (.kitchen restaurantId) p.state.history) items = loadBoard p.state.data restaurantId := by
    refine foldl_same (g := fun _ => loadBoard p.state.data restaurantId) hm (fun event hevent => ?_)
      (fun _ => rfl) items
    obtain ⟨s, items₀, kind, stage, ha⟩ := hk event hevent
    exact handle_reload ha
  rw [hfold]
  exact agrees_loadBoard hr.inv.ok.itemIds

/-- The requests of which every message makes the screen load the board again. -/
def Request.isLeave : Request → Bool
  | .checkoutSession _ _ | .abandonSession _ | .runSweep => true
  | _ => false

theorem Justified.of_isLeave (hj : Justified l h r) (hk : r.isLeave = true)
    (ha : h.Announces channel event) : ∃ s items kind stage, h = .leaving s items kind stage := by
  cases h with
  | leaving s items kind stage => exact ⟨s, items, kind, stage, rfl⟩
  | _ =>
    cases r <;> first | exact hj.elim | exact ha.elim | cases hk

theorem replica_left (hr : D.Reaches (fun _ => r) p) (hk : r.isLeave = true)
    (hm : messagesOn (.kitchen restaurantId) p.state.history ≠ []) :
    Agrees (receive (loadBoard p.state.data restaurantId)
      (messagesOn (.kitchen restaurantId) p.state.history) items) p.state.data restaurantId := by
  refine replica_reloaded hr (fun event hevent => ?_) hm
  obtain ⟨l₁, e, l₂, h, hh, hc, ha⟩ := hr.sent hevent
  obtain ⟨s, items₀, kind, stage, rfl⟩ := hc.justified.of_isLeave hk ha
  exact ⟨s, items₀, kind, stage, ha⟩

/-- A restore either reopens the session, or the board is loaded again. -/
theorem replica_restored {user : TokenPayload} {sessionId : Uuid}
    (hr : D.Reaches (fun _ => .restoreSession user sessionId) p)
    (hm : messagesOn (.kitchen restaurantId) p.state.history ≠ []) (ha : Agrees items D.data restaurantId) :
    Agrees (receive (loadBoard p.state.data restaurantId)
      (messagesOn (.kitchen restaurantId) p.state.history) items) p.state.data restaurantId := by
  have hsingle : (Request.restoreSession user sessionId).Single := by
    intro l h hj
    cases h with
    | opening s => exact hj
    | reopening s => exact hj.1.1
    | leaving s items kind stage => exact hj.1.1.1
    | _ => exact hj.elim
  by_cases hreopened : ∃ l₁ e l₂ s, p.state.history = l₁ ++ e :: l₂ ∧
      Committed owner (fun _ => .restoreSession user sessionId) l₁ e (.reopening s)
  · obtain ⟨l₁, e, l₂, s, hh, hc⟩ := hreopened
    obtain ⟨hbefore, hafter⟩ := hr.single hsingle hh hc
    have hitems : p.state.data.items = D.data.items := by
      rw [hafter, ← hbefore]
      exact (hc.items_kept rfl).1
    have hevents : ∀ event ∈ messagesOn (.kitchen restaurantId) p.state.history,
        (∀ items, handleWsEvent (loadBoard p.state.data restaurantId) items event =
          loadBoard p.state.data restaurantId) ∨
        ∀ items, handleWsEvent (loadBoard p.state.data restaurantId) items event = items := by
      intro event hevent
      obtain ⟨m₁, e', m₂, h, hh', hc', hann⟩ := hr.sent hevent
      cases hk : h.changesItems with
      | false => exact .inr (handle_other hann hk)
      | true =>
        have hj := hc'.justified
        cases h with
        | leaving s items kind stage => exact .inl (handle_reload hann)
        | moved | ordering | ordered => exact hj.elim
        | _ => cases hk
    have hkeep : ∀ events : List RealtimeEvent,
        (∀ event ∈ events, event ∈ messagesOn (.kitchen restaurantId) p.state.history) → ∀ items,
        Agrees items p.state.data restaurantId → Agrees (receive (loadBoard p.state.data restaurantId)
          events items) p.state.data restaurantId := by
      intro events hsub
      induction events with
      | nil => exact fun _ h => h
      | cons event events ih =>
        intro items h
        refine ih (fun x hx => hsub x (List.mem_cons_of_mem _ hx)) _ ?_
        rcases hevents event (hsub event List.mem_cons_self) with he | he
        · rw [he]
          exact agrees_loadBoard hr.inv.ok.itemIds
        · rw [he]
          exact h
    exact hkeep _ (fun _ h => h) items (ha.congr hitems)
  · refine replica_reloaded hr (fun event hevent => ?_) hm
    obtain ⟨l₁, e, l₂, h, hh, hc, hann⟩ := hr.sent hevent
    have hj := hc.justified
    cases h with
    | leaving s items kind stage => exact ⟨s, items, kind, stage, hann⟩
    | reopening s => exact absurd ⟨l₁, e, l₂, s, hh, hc⟩ hreopened
    | opening s => exact hann.elim
    | _ => exact hj.elim

/-- The screen that agreed with the board before an operation agrees with it after the
operation's messages, unless it was a new order or an undo. -/
theorem board_replica (hr : D.Reaches (fun _ => r) p)
    (hm : messagesOn (.kitchen restaurantId) p.state.history ≠ []) (ha : Agrees items D.data restaurantId) :
    Agrees (receive (loadBoard p.state.data restaurantId)
      (messagesOn (.kitchen restaurantId) p.state.history) items) p.state.data restaurantId ↔
        r.isCreateOrder = false ∧ r.isUndo = false := by
  cases hr' : r with
  | createOrder qrToken body =>
    subst hr'
    exact iff_of_false (replica_ordered hr hm _) fun h => by cases h.1
  | setItemStatus user itemId toStatus =>
    subst hr'
    rw [replica_moved hr rfl hm ha]
    exact ⟨fun h => ⟨rfl, h⟩, fun h => h.2⟩
  | cancelItemStaff user itemId reason =>
    subst hr'
    exact iff_of_true ((replica_moved hr rfl hm ha _).mpr rfl) ⟨rfl, rfl⟩
  | cancelItemCustomer qrToken itemId reason =>
    subst hr'
    exact iff_of_true ((replica_moved hr rfl hm ha _).mpr rfl) ⟨rfl, rfl⟩
  | restoreSession user sessionId =>
    subst hr'
    exact iff_of_true (replica_restored hr hm ha) ⟨rfl, rfl⟩
  | checkoutSession | runSweep | abandonSession =>
    subst hr'
    exact iff_of_true (replica_left hr rfl hm) ⟨rfl, rfl⟩
  | _ =>
    subst hr'
    refine iff_of_true (replica_kept hr (fun l h hj => ?_) ha _) ⟨rfl, rfl⟩
    cases h <;> first | rfl | exact hj.elim | exact hj.1.elim

end Operations

section Cafe

open KitchenBoard

def cafeCooks : Request := .setItemStatus cafeStaff 12 .cooking

/-- The cook starts the dish that the guest has ordered. -/
theorem board_replica_cafe : ∃ p : Clients 1, cafeOrdered.Reaches (fun _ => cafeCooks) p ∧
    Agrees (receive (loadBoard p.state.data 1) (messagesOn (.kitchen 1) p.state.history)
      (loadBoard cafeOrdered.data 1)) p.state.data 1 := by
  obtain ⟨p, hr, hc⟩ := cafeOrdered.reaches_play (fun _ : Fin 1 => cafeCooks)
    (fun p => decide (messagesOn (.kitchen 1) p.state.history ≠ [])) (steps 0 6) (by decide)
  exact ⟨p, hr, (board_replica hr (of_decide_eq_true hc) (agrees_loadBoard cafeOrdered.ok.itemIds)).mpr
    ⟨rfl, rfl⟩⟩

/-- Not every operation keeps the screen and the board together: a new order does not. -/
theorem board_replica_fails : ¬ ∀ (owner : Uuid → Uuid) (D : Deployment owner) (r : Request)
    (p : Clients 1) (restaurantId : Uuid) (items : Replica), D.Reaches (fun _ => r) p →
      messagesOn (.kitchen restaurantId) p.state.history ≠ [] → Agrees items D.data restaurantId →
      Agrees (receive (loadBoard p.state.data restaurantId)
        (messagesOn (.kitchen restaurantId) p.state.history) items) p.state.data restaurantId := by
  intro h
  obtain ⟨p, hr, hc⟩ := cafe.reaches_play (fun _ : Fin 1 => cafeOrder)
    (fun p => decide (messagesOn (.kitchen 1) p.state.history ≠ [])) (steps 0 15) (by decide)
  have hm := of_decide_eq_true hc
  exact replica_ordered hr hm _ (h _ cafe _ p 1 _ hr hm (agrees_loadBoard cafe.ok.itemIds))

end Cafe

end QOrder
