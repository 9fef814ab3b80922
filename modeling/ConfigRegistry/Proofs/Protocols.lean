import ConfigRegistry.Proofs.Deadlines
import Mathlib.Logic.Function.Basic

/-!
# Programs that keep to a protocol

When programs take turns, each sees a world that others change between its requests. A
protocol says what a program may ask where it stands and where a reply takes it; that a
program obeys one is shown without any world (`Prog.Obeys`). What the requests do to the
world is then shown once for the protocol, whatever the order of the turns
(`Turns.invariant`).
-/

namespace ConfigRegistry

variable {σ ι α β ε δ : Type}

/-- What may be asked at a stage, and the stage a reply leads to. -/
structure Protocol (σ : Type) where
  allows : σ → Request → Prop
  moves : σ → (r : Request) → r.Reply → σ → Prop

/-- A program asks what its protocol allows, and ends with `post` of the stage it has reached. -/
def Prog.Obeys (π : Protocol σ) (post : α → σ → Prop) : Prog α → σ → Prop
  | .done x, g => post x g
  | .ask r next, g => π.allows g r ∧ ∀ reply g', π.moves g r reply g' → (next reply).Obeys π post g'

def Action.Obeys (π : Protocol σ) (post : Except ε α → σ → Prop) (a : Action ε α) (g : σ) : Prop :=
  a.outcome.Obeys π post g

variable {π : Protocol σ} {g : σ}

theorem Prog.Obeys.mono {p : Prog α} {post post' : α → σ → Prop} (hp : p.Obeys π post g)
    (h : ∀ x g, post x g → post' x g) : p.Obeys π post' g := by
  induction p generalizing g with
  | done x => exact h x g hp
  | ask r next ih => exact ⟨hp.1, fun reply g' hg => ih reply (hp.2 reply g' hg)⟩

theorem Prog.obeys_bind {p : Prog α} {f : α → Prog β} {post : β → σ → Prop} :
    (p >>= f).Obeys π post g ↔ p.Obeys π (fun x g => (f x).Obeys π post g) g := by
  change (p.bind f).Obeys π post g ↔ _
  induction p generalizing g with
  | done x => rfl
  | ask r next ih => simp only [Prog.bind, Obeys, ih]

namespace Action

variable {post : Except ε α → σ → Prop} {a : Action ε α}

@[simp] theorem obeys_pure {x : α} : (pure x : Action ε α).Obeys π post g ↔ post (.ok x) g := .rfl

@[simp] theorem obeys_throw {e : ε} : (throw e : Action ε α).Obeys π post g ↔ post (.error e) g := .rfl

@[simp] theorem obeys_bind {f : α → Action ε β} {post : Except ε β → σ → Prop} :
    (a >>= f).Obeys π post g ↔ a.Obeys π (onOk post fun x g => (f x).Obeys π post g) g := by
  unfold Obeys
  rw [outcome_bind, Prog.obeys_bind]
  apply iff_of_eq
  congr 1
  funext r g
  cases r <;> rfl

@[simp] theorem obeys_mapError {f : ε → δ} {post : Except δ α → σ → Prop} :
    (a.mapError f).Obeys π post g ↔ a.Obeys π (fun r g => post (r.mapError f) g) g := by
  unfold Obeys
  rw [outcome_mapError, Prog.obeys_bind]
  rfl

theorem obeys_ask {r : Request} {post : Except ε r.Reply → σ → Prop} :
    (ask r).Obeys π post g ↔
      π.allows g r ∧ ∀ reply g', π.moves g r reply g' → post (.ok reply) g' := .rfl

theorem obeys_call {l : Nat} {c : Store.Call} {post : Except StoreError c.Result → σ → Prop} :
    (call l c).Obeys π post g ↔ π.allows g (.store (some l) c) ∧
      ∀ reply g', π.moves g (.store (some l) c) reply g' → post reply g' := .rfl

theorem obeys_emit {l : Nat} {s : Session} {event : String} {payload : Bytes}
    {post : Except TransportError Unit → σ → Prop} :
    (emit l s event payload).Obeys π post g ↔ π.allows g (.emit (some l) s event payload) ∧
      ∀ reply g', π.moves g (.emit (some l) s event payload) reply g' → post reply g' := .rfl

end Action

/-- A module is told of its error where its protocol allows. -/
theorem Lifecycle.obeys_report {s : Session} {a : Action LifecycleError α}
    {post : Except LifecycleError α → σ → Prop}
    (htell : ∀ e g, post (.error e) g → π.allows g (.emit none s errorMessage (errorPayload e)) ∧
      ∀ reply g', π.moves g (.emit none s errorMessage (errorPayload e)) reply g' → post (.error e) g')
    (ha : a.Obeys π post g) : (report s a).Obeys π post g := by
  unfold report Action.Obeys
  change Prog.Obeys π post (_ >>= _) g
  rw [Prog.obeys_bind]
  refine Prog.Obeys.mono ha fun r g hr => ?_
  cases r with
  | ok x => exact hr
  | error e =>
    by_cases he : e.isDataIntegrity
    · simp only [he, ↓reduceIte]
      obtain ⟨hallows, hmoves⟩ := htell e g hr
      exact ⟨hallows, fun reply g' hg => hmoves reply g' hg⟩
    · simp only [he, Bool.false_eq_true, ↓reduceIte]
      exact hr

/-! ## Requests that are answered at once -/

namespace World

variable {w : World}

/-- Without faults a store that can be reached answers as it does by itself. -/
theorem answer_served (n : Nat) (hf : w.faults = []) (ha : w.store.available = true) {l : Option Nat}
    {c : Store.Call} {x : c.Result} {st : Store} (hs : w.store.serve w.reading c = .ok x st)
    (hc : c.readsClock = false) : w.answer n (.store l c) = .now { w with store := st } (.ok x) := by
  rw [answer_store hf, replyAfter, if_pos rfl, perform_available c ha, hs, hc]
  rfl

theorem answer_heard (n : Nat) {l : Option Nat} {s : Session} {event : String} {payload : Bytes}
    (hs : w.hears s = true) :
    w.answer n (.emit l s event payload) = .now (w.accept s event payload) (.ok ()) := by
  have hb : (w.peer s).behaviour = .record := of_decide_eq_true hs
  simp [answer, sendTo, hb, replyAfter]

end World

/-! ## Taking turns -/

/-- Programs of nodes take turns: each turn is a request of one of them, answered at once. The turns
taken are kept with their requests. -/
inductive Turns [DecidableEq ι] (node : ι → Nat) (start : ι → Prog α) (w₀ : World) :
    List (ι × Request) → (ι → Prog α) → World → Prop where
  | start : Turns node start w₀ [] start w₀
  | next {turns : List (ι × Request)} {q : ι → Prog α} {w v : World} {i : ι} {r : Request}
      {k : r.Reply → Prog α} {reply : r.Reply} (before : Turns node start w₀ turns q w)
      (asks : q i = .ask r k) (answered : w.answer (node i) r = .now v reply) :
      Turns node start w₀ (turns ++ [(i, r)]) (Function.update q i (k reply)) v

/-- Lets programs take turns in an order, as long as they are answered at once: the turns taken,
what is left of the programs, and the world. -/
def play [DecidableEq ι] (node : ι → Nat) :
    List ι → (ι → Prog α) → World → List (ι × Request) × (ι → Prog α) × World
  | [], q, w => ([], q, w)
  | i :: order, q, w =>
    match q i with
    | .done _ => play node order q w
    | .ask r k =>
      match w.answer (node i) r with
      | .now v reply =>
        let (turns, q, v) := play node order (Function.update q i (k reply)) v
        ((i, r) :: turns, q, v)
      | _ => play node order q w

theorem Turns.play [DecidableEq ι] {node : ι → Nat} {start q : ι → Prog α} {w₀ w : World}
    {turns : List (ι × Request)} (h : Turns node start w₀ turns q w) (order : List ι) :
    Turns node start w₀ (turns ++ (play node order q w).1) (play node order q w).2.1
      (play node order q w).2.2 := by
  induction order generalizing turns q w with
  | nil => simpa [ConfigRegistry.play] using h
  | cons i order ih =>
    unfold ConfigRegistry.play
    cases hq : q i with
    | done x => exact ih h
    | ask r k =>
      cases hr : w.answer (node i) r with
      | now v reply => simpa [hr] using ih (h.next hq hr)
      | later _ _ _ => simpa [hr] using ih h
      | never _ => simpa [hr] using ih h
      | overflow => simpa [hr] using ih h

/-- Every allowed request is answered at once, and what holds of the turns taken, the stages and the
world holds again. -/
def Sustained [DecidableEq ι] (node : ι → Nat) (π : ι → Protocol σ)
    (Inv : List (ι × Request) → (ι → σ) → World → Prop) : Prop :=
  ∀ turns g w i r, Inv turns g w → (π i).allows (g i) r →
    ∃ v reply g', w.answer (node i) r = .now v reply ∧ (π i).moves (g i) r reply g' ∧
      Inv (turns ++ [(i, r)]) (Function.update g i g') v

section Invariants

variable [DecidableEq ι] {node : ι → Nat} {start q : ι → Prog α} {w₀ w : World}
  {turns : List (ι × Request)} {π : ι → Protocol σ} {post : ι → α → σ → Prop} {g₀ : ι → σ}
  {Inv : List (ι × Request) → (ι → σ) → World → Prop}

/-- What every allowed request preserves holds after any turns of programs that obey. -/
theorem Turns.invariant (h : Turns node start w₀ turns q w)
    (hobeys : ∀ i, (start i).Obeys (π i) (post i) (g₀ i)) (hstart : Inv [] g₀ w₀)
    (hnext : Sustained node π Inv) : ∃ g, Inv turns g w ∧ ∀ i, (q i).Obeys (π i) (post i) (g i) := by
  induction h with
  | start => exact ⟨g₀, hstart, hobeys⟩
  | @next turns q w v i r k reply _ hasks hanswer ih =>
    obtain ⟨g, hinv, hq⟩ := ih
    have hi := hq i
    rw [hasks] at hi
    obtain ⟨v', reply', g', hanswer', hmoves, hinv'⟩ := hnext _ _ _ i r hinv hi.1
    obtain ⟨rfl, rfl⟩ := Answer.now.inj (hanswer.symm.trans hanswer')
    refine ⟨Function.update g i g', hinv', fun j => ?_⟩
    by_cases hj : j = i
    · subst hj
      rw [Function.update_self, Function.update_self]
      exact hi.2 reply g' hmoves
    · rw [Function.update_of_ne hj, Function.update_of_ne hj]
      exact hq j

/-- Any program can be brought to its end. -/
theorem Turns.brought_to_end (h : Turns node start w₀ turns q w)
    (hobeys : ∀ i, (start i).Obeys (π i) (post i) (g₀ i)) (hstart : Inv [] g₀ w₀)
    (hnext : Sustained node π Inv) (i : ι) :
    ∃ more x v, Turns node start w₀ (turns ++ more) (Function.update q i (.done x)) v := by
  generalize hp : q i = p
  induction p generalizing turns q w with
  | done x =>
    refine ⟨[], x, w, ?_⟩
    rwa [← hp, Function.update_eq_self, List.append_nil]
  | ask r k ih =>
    obtain ⟨g, hinv, hq⟩ := h.invariant hobeys hstart hnext
    have hi := hq i
    rw [hp] at hi
    obtain ⟨v, reply, g', hanswer, -⟩ := hnext _ _ _ i r hinv hi.1
    obtain ⟨more, x, v', hmore⟩ := ih reply (h.next hp hanswer) (Function.update_self i _ q)
    rw [Function.update_idem, List.append_assoc] at hmore
    exact ⟨_, x, v', hmore⟩

end Invariants

end ConfigRegistry
