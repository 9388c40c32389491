import QOrder.HandlerProofs

/-! The runs of the system: any number of clients, each with its request, from
consistent data on. Every reachable state keeps the discipline, and a client that has
ended has the outcome its own events account for. -/

namespace QOrder

open KeyedTable Concurrency

variable {n : Nat} {owner : Uuid → Uuid}

abbrev Clients (n : Nat) := Pool (Fin n) (Sys n) Stmt Stmt.Resp DbError Exn Response

/-- Where runs start. The empty database is one such place, and the clients that have
not begun yet may be any number. -/
structure Deployment (owner : Uuid → Uuid) where
  catalog : Catalog
  data : Data
  clock : Timestamp
  appClock : Timestamp
  nextUuid : Uuid
  owned : catalog.Owned owner
  ok : data.Ok owner
  below : data.Below nextUuid

namespace Deployment

variable (D : Deployment owner)

def initial (n : Nat) : Sys n := Sys.start n D.catalog D.data D.clock D.appClock D.nextUuid

/-- Every client about to run the handler of its request. -/
def start (req : Fin n → Request) : Clients n := ⟨D.initial n, fun t => (req t).handler⟩

abbrev Reaches (req : Fin n → Request) (p : Clients n) : Prop :=
  (machine owner n).Reachable (D.start req) p

theorem initial_inv (req : Fin n → Request) : Inv owner req D.data (D.initial n) where
  ok := D.ok
  owned := D.owned
  below := D.below
  writesBelow _ := Data.below_empty _
  separate t := Sys.separate_empty _ t
  began _ _ h := by simp [initial, Sys.start] at h
  past _ h := by simp [initial, Sys.start] at h
  logged := Logged.nil
  follows := rfl

end Deployment

/-- The goal of every client: to hold nothing and have its outcome. -/
def Goal (owner : Uuid → Uuid) (req : Fin n → Request) (t : Fin n) (r : Except Exn Response)
    (σ : Sys n) : Prop :=
  ∃ h' l', At owner t h' l' σ ∧ HandlerPost owner (req t) r h' l'

/-- What holds in every state the clients reach from `d₀`. -/
structure Kept (owner : Uuid → Uuid) (req : Fin n → Request) (d₀ : Data) (p : Clients n) : Prop where
  inv : Inv owner req d₀ p.state
  safe : ∀ t, (discipline owner req d₀).Safe t (p.threads t) (Goal owner req t) p.state

section Kept

variable {req : Fin n → Request} {d₀ : Data} {p : Clients n} {t : Fin n}

theorem kept_of_reachable (D : Deployment owner) {program : Fin n → Action Response}
    (hprogram : ∀ t, Triple owner req D.data t .nothing [] (program t) (HandlerPost owner (req t)))
    (h : (machine owner n).Reachable ⟨D.initial n, program⟩ p) : Kept owner req D.data p := by
  have hinit := D.initial_inv req
  have hs := Discipline.sound (D := discipline owner req D.data) h hinit fun t =>
    hprogram t _ hinit ⟨rfl, rfl, trivial, .inl rfl⟩
  exact ⟨hs.1, hs.2⟩

/-- A client executes its next statement under a holding that allows it. -/
theorem Kept.ready (h : Kept owner req d₀ p) {q : Stmt} {k : Except DbError q.Resp → Action Response}
    (hp : p.threads t = .stmt q k) : Ready owner req t q p.state := by
  have hs := h.safe t
  rw [hp] at hs
  exact (hs p.state .refl h.inv).1

theorem Kept.ended (h : Kept owner req d₀ p) {r : Except Exn Response}
    (hr : (p.threads t).answer = some r) :
    At owner t .nothing (own t p.state.history) p.state ∧
      Outcome owner (req t) r (own t p.state.history) := by
  have hs := h.safe t
  have hg : Goal owner req t r p.state := by
    cases r with
    | ok a =>
      rw [Prog.answer_ok hr] at hs
      exact hs p.state .refl h.inv
    | error e =>
      rw [Prog.answer_error hr] at hs
      exact hs p.state .refl h.inv
  obtain ⟨h', l', ha, rfl, ho⟩ := hg
  exact ⟨ha.own.symm ▸ ha, ha.own.symm ▸ ho⟩

theorem Kept.entry (h : Kept owner req d₀ p) {e : Event n} (he : e ∈ p.state.history) :
    ∃ hb, hb <+: p.state.history ∧ Entry owner req hb e := by
  obtain ⟨hb, ha, heq⟩ := List.append_of_mem he
  exact ⟨hb, ⟨e :: ha, heq.symm⟩, h.inv.logged hb e ha heq⟩

variable {D : Deployment owner}

theorem Deployment.Reaches.kept (h : D.Reaches req p) : Kept owner req D.data p :=
  kept_of_reachable D (fun t => Triple.handler t) h

theorem Deployment.Reaches.inv (h : D.Reaches req p) : Inv owner req D.data p.state := h.kept.inv

theorem Deployment.Reaches.entry (h : D.Reaches req p) {e : Event n} (he : e ∈ p.state.history) :
    ∃ hb, hb <+: p.state.history ∧ Entry owner req hb e := h.kept.entry he

end Kept

section Schedules

/-- One turn of a schedule: a client executes its next statement, or the clocks move. -/
inductive Turn (n : Nat)
  | step (t : Fin n)
  | tick (clock appClock : Timestamp)

def turn (allowed : Fin n → Stmt → Sys n → Bool) (p : Clients n) : Turn n → Option (Clients n)
  | .step t =>
    match p.threads t with
    | .stmt q k =>
      if allowed t q p.state && !p.state.blocked t q then
        let (r, σ) := p.state.perform t q
        some ⟨σ, Function.update p.threads t (k r)⟩
      else none
    | _ => none
  | .tick clock appClock =>
    if p.state.clock ≤ clock then some ⟨{ p.state with clock, appClock }, p.threads⟩ else none

/-- Plays a schedule in which a client only executes what is allowed. -/
def playUnder (allowed : Fin n → Stmt → Sys n → Bool) : List (Turn n) → Clients n → Option (Clients n)
  | [], p => some p
  | x :: xs, p => (turn allowed p x).bind (playUnder allowed xs)

def play : List (Turn n) → Clients n → Option (Clients n) := playUnder fun _ _ _ => true

theorem turn_step {allowed : Fin n → Stmt → Sys n → Bool} {p p' : Clients n} {x : Turn n}
    (h : turn allowed p x = some p') :
    ((machine owner n).restrict fun t q σ => allowed t q σ).Step p p' := by
  cases x with
  | step t =>
    simp only [turn] at h
    split at h
    next q k hp =>
      split at h
      next hb =>
        cases h
        obtain ⟨ha, hb⟩ := Bool.and_eq_true_iff.mp hb
        exact .exec hp ⟨ha, .perform (by simpa using hb)⟩
      · cases h
    · cases h
  | tick clock appClock =>
    simp only [turn] at h
    split at h
    next hle =>
      cases h
      exact .env (.tick clock appClock hle)
    · cases h

theorem playUnder_reachable {allowed : Fin n → Stmt → Sys n → Bool} {xs : List (Turn n)}
    {p p' : Clients n} (h : playUnder allowed xs p = some p') :
    ((machine owner n).restrict fun t q σ => allowed t q σ).Reachable p p' := by
  induction xs generalizing p with
  | nil =>
    cases h
    exact .refl
  | cons x xs ih =>
    obtain ⟨m, hm, hr⟩ := Option.bind_eq_some_iff.mp h
    exact .head (turn_step hm) (ih hr)

/-- A schedule whose last state passes a check reaches a state that passes it. -/
theorem reachable_playUnder (owner : Uuid → Uuid) (p₀ : Clients n)
    (allowed : Fin n → Stmt → Sys n → Bool) (check : Clients n → Bool) (xs : List (Turn n))
    (h : (playUnder allowed xs p₀).any check = true) :
    ∃ p, ((machine owner n).restrict fun t q σ => allowed t q σ).Reachable p₀ p ∧ check p = true := by
  cases hp : playUnder allowed xs p₀ with
  | none => simp [hp] at h
  | some p =>
    rw [hp] at h
    exact ⟨p, playUnder_reachable hp, h⟩

theorem reachable_play (owner : Uuid → Uuid) (p₀ : Clients n) (check : Clients n → Bool)
    (xs : List (Turn n)) (h : (play xs p₀).any check = true) :
    ∃ p, (machine owner n).Reachable p₀ p ∧ check p = true := by
  obtain ⟨p, hr, hc⟩ := reachable_playUnder owner p₀ _ check xs h
  exact ⟨p, hr.of_restrict, hc⟩

theorem Deployment.reaches_play (D : Deployment owner) (req : Fin n → Request)
    (check : Clients n → Bool) (xs : List (Turn n))
    (h : (play xs (D.start req)).any check = true) : ∃ p, D.Reaches req p ∧ check p = true :=
  reachable_play owner _ check xs h

def response (p : Clients n) (t : Fin n) : Option Response :=
  (p.threads t).answer.bind Except.toOption

theorem answer_of_response {p : Clients n} {t : Fin n} {a : Response} (h : response p t = some a) :
    (p.threads t).answer = some (.ok a) := by
  obtain ⟨r, hr, ha⟩ := Option.bind_eq_some_iff.mp h
  cases r with
  | ok b =>
    cases ha
    exact hr
  | error e => cases ha

def failure (p : Clients n) (t : Fin n) : Option Exn :=
  match (p.threads t).answer with
  | some (.error e) => some e
  | _ => none

theorem answer_of_failure {p : Clients n} {t : Fin n} {e : Exn} (h : failure p t = some e) :
    (p.threads t).answer = some (.error e) := by
  unfold failure at h
  split at h
  next e' he =>
    cases h
    exact he
  · cases h

def steps (t : Fin n) (k : Nat) : List (Turn n) := List.replicate k (.step t)

theorem empty_ok : ({} : Data).Ok fun _ => 1 :=
  Data.ok_empty _

theorem empty_below : ({} : Data).Below 10 :=
  Data.below_empty _

/-- A restaurant with one table and one dish, before its first guest. -/
def cafe : Deployment fun _ => 1 where
  catalog :=
    { restaurants := [{ id := 1 }]
      settings := [{ restaurantId := 1 }]
      tables := [{ id := 2, restaurantId := 1, qrToken := "ban-1" }]
      menuItems := [{ id := 3, restaurantId := 1, name := "Phở bò", price := 5000000, prepTimeMinutes := 10 }] }
  data := {}
  clock := 0
  appClock := 0
  nextUuid := 10
  owned := by simp [Catalog.Owned]
  ok := empty_ok
  below := empty_below

def cafeOrder : Request := .createOrder "ban-1" ⟨[{ menuItemId := 3, quantity := 1 }], by simp⟩

def cafeStaff : TokenPayload := ⟨4, 1⟩

end Schedules

end QOrder
