import TulyaStore.Lib.Outcome

/-!
# Programs that talk to a device

A device answers calls and changes a state of its own; nothing else is known about its answers, so
a statement over all devices is one over every script of answers, also of answers that depend on
what was called before. A program has a state that it owns and a log of the calls it made.

`Plays` says what the answers to a list of calls are, without a program; every program logs calls
that its device plays (`Played`).
-/

namespace TulyaStore.Lib

structure Device (Call : Type) (Reply : Call → Type) (σ : Type) where
  answer : σ → (call : Call) → Reply call × σ

/-- A call with its answer. -/
structure Event (Call : Type) (Reply : Call → Type) where
  call : Call
  reply : Reply call

/-- The state of a program that owns `own` and talks to a device. -/
structure Session (Call : Type) (Reply : Call → Type) (ω σ : Type) where
  own : ω
  device : σ
  log : List (Event Call Reply)

variable {Call : Type} {Reply : Call → Type} {ω ω' σ ε ε' α : Type}

/-- One call. -/
def perform (d : Device Call Reply σ) (call : Call) :
    EStateM ε (Session Call Reply ω σ) (Reply call) := fun s =>
  .ok (d.answer s.device call).1
    ⟨s.own, (d.answer s.device call).2, s.log ++ [⟨call, (d.answer s.device call).1⟩]⟩

/-- Changes what the program owns. -/
def modifyOwn (f : ω → ω) : EStateM ε (Session Call Reply ω σ) Unit := fun s =>
  .ok () { s with own := f s.own }

/-- The session with another owner. -/
def Session.withOwn (s : Session Call Reply ω σ) (own : ω') : Session Call Reply ω' σ :=
  ⟨own, s.device, s.log⟩

/-- Runs a program on a part of what is owned. -/
def onPart (get : ω → ω') (set : ω' → ω → ω) (wrap : ε' → ε)
    (x : EStateM ε' (Session Call Reply ω' σ) α) : EStateM ε (Session Call Reply ω σ) α := fun s =>
  match x (s.withOwn (get s.own)) with
  | .ok a t => .ok a (t.withOwn (set t.own s.own))
  | .error e t => .error (wrap e) (t.withOwn (set t.own s.own))

/-- The device answers the calls of the events, one after the other, as the events say. -/
inductive Plays (d : Device Call Reply σ) : σ → List (Event Call Reply) → σ → Prop
  | nil (device : σ) : Plays d device [] device
  | cons {device next last : σ} {event : Event Call Reply} {events : List (Event Call Reply)}
      (hAnswer : d.answer device event.call = (event.reply, next))
      (hRest : Plays d next events last) : Plays d device (event :: events) last

/-- The calls between two sessions are in the log, and the device played them. -/
def Played (d : Device Call Reply σ) (s t : Session Call Reply ω σ) : Prop :=
  ∃ events, t.log = s.log ++ events ∧ Plays d s.device events t.device

section Rules

variable {d : Device Call Reply σ} {call : Call} {s t u : Session Call Reply ω σ}

theorem Plays.append {first middle last : σ} {events more : List (Event Call Reply)}
    (h : Plays d first events middle) (hMore : Plays d middle more last) :
    Plays d first (events ++ more) last := by
  induction h with
  | nil => exact hMore
  | cons hAnswer _ ih => exact .cons hAnswer (ih hMore)

theorem Plays.of_append {first last : σ} {events more : List (Event Call Reply)}
    (h : Plays d first (events ++ more) last) :
    ∃ middle, Plays d first events middle ∧ Plays d middle more last := by
  induction events generalizing first with
  | nil => exact ⟨first, .nil first, h⟩
  | cons event events ih =>
    cases h with
    | cons hAnswer hRest =>
      obtain ⟨middle, hFront, hBack⟩ := ih hRest
      exact ⟨middle, .cons hAnswer hFront, hBack⟩

theorem Played.refl (s : Session Call Reply ω σ) : Played d s s :=
  ⟨[], (List.append_nil _).symm, .nil _⟩

theorem Played.trans (hst : Played d s t) (htu : Played d t u) : Played d s u := by
  obtain ⟨events, hLog, hPlays⟩ := hst
  obtain ⟨more, hLog', hPlays'⟩ := htu
  exact ⟨events ++ more, by rw [hLog', hLog, List.append_assoc], hPlays.append hPlays'⟩

theorem keeps_played_perform (d : Device Call Reply σ) (call : Call) :
    Keeps (Played d) (perform d call : EStateM ε (Session Call Reply ω σ) (Reply call)) := by
  intro s
  exact ⟨[⟨call, (d.answer s.device call).1⟩], rfl, .cons rfl (.nil _)⟩

theorem keeps_played_bind {x : EStateM ε (Session Call Reply ω σ) α}
    {β : Type} {f : α → EStateM ε (Session Call Reply ω σ) β} (hx : Keeps (Played d) x)
    (hf : ∀ a, Keeps (Played d) (f a)) : Keeps (Played d) (x >>= f) :=
  keeps_bind (fun _ _ _ => Played.trans) hx hf

/-- A call with a known answer. -/
theorem perform_run_of {reply : Reply call} {next : σ}
    (h : d.answer s.device call = (reply, next)) :
    perform (ε := ε) d call s = .ok reply ⟨s.own, next, s.log ++ [⟨call, reply⟩]⟩ := by
  rw [perform, h]

/-- What a call leaves: an answer, and one more event. -/
theorem perform_run (d : Device Call Reply σ) (call : Call) (s : Session Call Reply ω σ) :
    ∃ reply device, perform (ε := ε) d call s = .ok reply ⟨s.own, device, s.log ++ [⟨call, reply⟩]⟩ :=
  ⟨_, _, rfl⟩

theorem onPart_ok {get : ω → ω'} {set : ω' → ω → ω} {wrap : ε' → ε}
    {x : EStateM ε' (Session Call Reply ω' σ) α} {a : α} {t : Session Call Reply ω' σ}
    (h : x (s.withOwn (get s.own)) = .ok a t) :
    onPart get set wrap x s = .ok a (t.withOwn (set t.own s.own)) := by
  rw [onPart, h]

theorem onPart_error {get : ω → ω'} {set : ω' → ω → ω} {wrap : ε' → ε}
    {x : EStateM ε' (Session Call Reply ω' σ) α} {e : ε'} {t : Session Call Reply ω' σ}
    (h : x (s.withOwn (get s.own)) = .error e t) :
    onPart get set wrap x s = .error (wrap e) (t.withOwn (set t.own s.own)) := by
  rw [onPart, h]

end Rules

end TulyaStore.Lib
