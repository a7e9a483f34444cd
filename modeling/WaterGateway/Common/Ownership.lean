import WaterGateway.Common.Run

/-!
# Programs that own handles

A program takes handles, starts threads that are lent some of them, asks
the threads to stop, joins them and gives the handles back; every call that
can fail has a way out of its own. `Program` is such a program as the tree
of its calls and their answers, `step` runs it beside its threads, which
may end at any time, and beside signals, which may come at any time.

A call is `Allowed` where it does no harm: nothing is released that is not
held, or that a thread still has; a thread is joined that is there, and has
been asked to stop. `Safe` goes through the calls of a program once, and
what it finds holds in every run of it (`sound_of_exec`).
-/

namespace WaterGateway

namespace Ownership

/-- A call, of a program with handles `ρ`, threads `τ` and flags `κ`. -/
inductive Op (ρ τ κ : Type)
  /-- A call that gives an answer and no handle. -/
  | ask
  | acquire (r : ρ)
  | use (r : ρ)
  | release (r : ρ)
  /-- The start of a thread, which is lent `rs`. -/
  | create (t : τ) (rs : List ρ)
  /-- The write of a flag, which is found in the handles `rs`. -/
  | tell (k : κ) (rs : List ρ)
  /-- The wait for a flag, with `rs` in use. -/
  | await (k : κ) (rs : List ρ)
  | join (t : τ)
  deriving DecidableEq

/-- **A program**: a call, and how it goes on after either answer. -/
inductive Program (ρ τ κ α : Type)
  | done (a : α)
  | call (o : Op ρ τ κ) (next : Bool → Program ρ τ κ α)

variable {ρ τ κ α β : Type}

namespace Program

/-- What a program has returned. -/
def result : Program ρ τ κ α → Option α
  | .done a => some a
  | .call _ _ => none

/-- The call a program makes next. -/
def nextOp : Program ρ τ κ α → Option (Op ρ τ κ)
  | .done _ => none
  | .call o _ => some o

theorem nextOp_eq_some {p : Program ρ τ κ α} {o : Op ρ τ κ} :
    p.nextOp = some o ↔ ∃ next, p = .call o next := by
  cases p with
  | done a =>
    constructor
    · intro h
      cases h
    · rintro ⟨next, h⟩
      cases h
  | call o' next =>
    constructor
    · intro h
      cases h
      exact ⟨next, rfl⟩
    · rintro ⟨next', h⟩
      cases h
      rfl

/-- What is left of a program behind `n` calls that succeed. -/
def skip : ℕ → Program ρ τ κ α → Program ρ τ κ α
  | 0, p => p
  | _ + 1, .done a => .done a
  | n + 1, .call _ next => skip n (next true)

theorem skip_succ {p : Program ρ τ κ α} {n : ℕ} {o : Op ρ τ κ} {next : Bool → Program ρ τ κ α}
    (h : p.skip n = .call o next) : p.skip (n + 1) = next true := by
  induction n generalizing p with
  | zero =>
    cases p with
    | done a => cases h
    | call o' next' =>
      cases h
      rfl
  | succ n ih =>
    cases p with
    | done a => cases h
    | call o' next' => exact ih h

protected def bind : Program ρ τ κ α → (α → Program ρ τ κ β) → Program ρ τ κ β
  | .done a, f => f a
  | .call o next, f => .call o fun answer => (next answer).bind f

instance : Monad (Program ρ τ κ) where
  pure := .done
  bind := Program.bind

end Program

/-- A call whose answer counts. -/
def ask : Program ρ τ κ Bool := .call .ask .done

def acquire (r : ρ) : Program ρ τ κ Bool := .call (.acquire r) .done

def create (t : τ) (rs : List ρ) : Program ρ τ κ Bool := .call (.create t rs) .done

/-- A call that has no answer. -/
def perform (o : Op ρ τ κ) : Program ρ τ κ Unit := .call o fun _ => .done ()

def use (r : ρ) : Program ρ τ κ Unit := perform (.use r)

def release (r : ρ) : Program ρ τ κ Unit := perform (.release r)

def tell (k : κ) (rs : List ρ) : Program ρ τ κ Unit := perform (.tell k rs)

def await (k : κ) (rs : List ρ) : Program ρ τ κ Unit := perform (.await k rs)

def join (t : τ) : Program ρ τ κ Unit := perform (.join t)

/-- What the program has: the handles, the threads it has not joined with
what they were lent, and the flags. -/
structure Books (ρ τ κ : Type) where
  held : List ρ
  threads : List (τ × List ρ)
  told : κ → Bool

/-- The books of a program that starts. -/
def Books.empty : Books ρ τ κ := ⟨[], [], fun _ => false⟩

/-- What is around a program: which calls can fail, which flags a signal can
set, and which flags a thread has to find set to come to its end. -/
structure World (ρ τ κ : Type) where
  fails : Op ρ τ κ → Bool
  signals : κ → Bool
  needs : τ → List κ

/-- Whether the world can give an answer. -/
def World.answers (world : World ρ τ κ) (o : Op ρ τ κ) (answer : Bool) : Prop :=
  answer = false → world.fails o = true

instance (world : World ρ τ κ) (o : Op ρ τ κ) (answer : Bool) :
    Decidable (world.answers o answer) :=
  inferInstanceAs (Decidable (_ → _))

/-- **A call that does no harm.** -/
def Op.Allowed (needs : τ → List κ) (b : Books ρ τ κ) : Op ρ τ κ → Prop
  | .ask => True
  | .acquire r => r ∉ b.held
  | .use r => r ∈ b.held
  | .release r => r ∈ b.held ∧ ∀ p ∈ b.threads, r ∉ p.2
  | .create t rs => t ∉ b.threads.map Prod.fst ∧ ∀ r ∈ rs, r ∈ b.held
  | .tell _ rs | .await _ rs => ∀ r ∈ rs, r ∈ b.held
  | .join t => t ∈ b.threads.map Prod.fst ∧ ∀ k ∈ needs t, b.told k = true

/-- **No thread has a handle that is given back.** -/
def Books.Lent (b : Books ρ τ κ) : Prop := ∀ p ∈ b.threads, ∀ r ∈ p.2, r ∈ b.held

/-- More flags are set. -/
structure Books.Further (b b' : Books ρ τ κ) : Prop where
  held : b'.held = b.held
  threads : b'.threads = b.threads
  told : ∀ k, b.told k = true → b'.told k = true

variable {b b' : Books ρ τ κ} {o : Op ρ τ κ} {answer : Bool}

theorem Op.Allowed.further (hb : b.Further b') {needs : τ → List κ} (h : o.Allowed needs b) :
    o.Allowed needs b' := by
  obtain ⟨held, threads, told⟩ := b'
  obtain ⟨rfl, rfl, htold⟩ := hb
  cases o with
  | join t => exact ⟨h.1, fun k hk => htold k (h.2 k hk)⟩
  | ask | acquire | use | release | create | tell | await => exact h

variable [DecidableEq κ]

theorem Books.Further.set (b : Books ρ τ κ) (k : κ) :
    b.Further { b with told := Function.update b.told k true } :=
  ⟨rfl, rfl, fun j hj => by
    change Function.update b.told k true j = true
    rw [Function.update_apply]
    split
    · rfl
    · exact hj⟩

theorem Books.Further.update (h : b.Further b') (k j : κ)
    (hj : Function.update b.told k true j = true) : Function.update b'.told k true j = true := by
  rw [Function.update_apply] at hj ⊢
  split
  · rfl
  · next hne =>
    rw [if_neg hne] at hj
    exact h.told j hj

variable [DecidableEq ρ] [DecidableEq τ]

/-- **What a call does to the books.** -/
def Op.after (answer : Bool) (b : Books ρ τ κ) : Op ρ τ κ → Books ρ τ κ
  | .acquire r => if answer then { b with held := r :: b.held } else b
  | .release r => { b with held := b.held.erase r }
  | .create t rs => if answer then { b with threads := (t, rs) :: b.threads } else b
  | .tell k _ | .await k _ => { b with told := Function.update b.told k true }
  | .join t => { b with threads := b.threads.filter fun p => p.1 ≠ t }
  | .ask | .use _ => b

instance Op.decidableAllowed (needs : τ → List κ) (b : Books ρ τ κ) :
    (o : Op ρ τ κ) → Decidable (o.Allowed needs b)
  | .ask => inferInstanceAs (Decidable True)
  | .acquire _ => inferInstanceAs (Decidable (¬ _))
  | .use _ => inferInstanceAs (Decidable (_ ∈ _))
  | .release _ | .create _ _ | .join _ => inferInstanceAs (Decidable (_ ∧ _))
  | .tell _ _ | .await _ _ => inferInstanceAs (Decidable (∀ r ∈ _, _))

/-! ## The machine -/

/-- **A program under way**, and the threads that have come to their end. -/
structure State (ρ τ κ α : Type) where
  program : Program ρ τ κ α
  books : Books ρ τ κ
  ended : τ → Bool

/-- Where a program starts. -/
def State.start (p : Program ρ τ κ α) : State ρ τ κ α := ⟨p, .empty, fun _ => false⟩

/-- What happens: a call is answered, a thread ends, or a signal comes. -/
inductive Label (τ κ : Type)
  | call (answer : Bool)
  | ends (t : τ)
  | signal (k : κ)
  deriving DecidableEq

/-- A call that waits for something is answered when it is there. -/
def Op.ready (b : Books ρ τ κ) (ended : τ → Bool) : Op ρ τ κ → Bool
  | .await k _ => b.told k
  | .join t => ended t
  | _ => true

/-- A thread that is started has not ended. -/
def Op.revive (ended : τ → Bool) : Op ρ τ κ → τ → Bool
  | .create t _ => Function.update ended t false
  | _ => ended

/-- **The machine.** -/
def step (world : World ρ τ κ) (s : State ρ τ κ α) : Label τ κ → Option (State ρ τ κ α)
  | .call answer =>
    match s.program with
    | .done _ => none
    | .call o next =>
      if o.ready s.books s.ended = true ∧ world.answers o answer then
        some ⟨next answer, o.after answer s.books, o.revive s.ended⟩
      else none
  | .ends t =>
    if t ∈ s.books.threads.map Prod.fst then
      some { s with ended := Function.update s.ended t true }
    else none
  | .signal k =>
    if world.signals k = true then
      some { s with books := { s.books with told := Function.update s.books.told k true } }
    else none

/-! ## Going through a program once -/

/-- **No call of the program does harm**, whatever the answers are; it
returns with no thread left, and with handles of which `post` holds. -/
def Program.Safe (world : World ρ τ κ) (post : α → List ρ → Prop) :
    Program ρ τ κ α → Books ρ τ κ → Prop
  | .done a, b => b.threads = [] ∧ post a b.held
  | .call o next, b =>
    o.Allowed world.needs b ∧
      ∀ answer, world.answers o answer → (next answer).Safe world post (o.after answer b)

instance Program.decidableSafe (world : World ρ τ κ) (post : α → List ρ → Prop)
    [∀ a held, Decidable (post a held)] :
    (p : Program ρ τ κ α) → (b : Books ρ τ κ) → Decidable (p.Safe world post b)
  | .done _, _ => inferInstanceAs (Decidable (_ ∧ _))
  | .call o next, b =>
    have := fun answer => decidableSafe world post (next answer) (o.after answer b)
    inferInstanceAs (Decidable (_ ∧ ∀ answer, world.answers o answer → _))

variable {world world' : World ρ τ κ} {post : α → List ρ → Prop} {p : Program ρ τ κ α}
variable {s s' : State ρ τ κ α} {ls : List (Label τ κ)}

theorem Op.after_further (hb : b.Further b') :
    (o.after answer b).Further (o.after answer b') := by
  have hset := hb.update
  obtain ⟨held, threads, told⟩ := b'
  obtain ⟨rfl, rfl, htold⟩ := hb
  cases o with
  | ask | use | release | join => exact ⟨rfl, rfl, htold⟩
  | acquire | create =>
    cases answer with
    | false => exact ⟨rfl, rfl, htold⟩
    | true => exact ⟨rfl, rfl, htold⟩
  | tell k | await k => exact ⟨rfl, rfl, hset k⟩

/-- A flag that is set early does no harm. -/
theorem Program.Safe.further (hb : b.Further b') (h : p.Safe world post b) :
    p.Safe world post b' := by
  induction p generalizing b b' with
  | done a =>
    obtain ⟨hthreads, hpost⟩ := h
    exact ⟨hb.threads.trans hthreads, hb.held ▸ hpost⟩
  | call o next ih =>
    exact ⟨h.1.further hb, fun answer ha => ih answer (Op.after_further hb) (h.2 answer ha)⟩

/-! ## Worlds in which less can happen -/

/-- Whatever happens in `world` can happen in `world'`. -/
structure World.Within (world world' : World ρ τ κ) : Prop where
  fails : ∀ o, world.fails o = true → world'.fails o = true
  signals : ∀ k, world.signals k = true → world'.signals k = true
  needs : world'.needs = world.needs

omit [DecidableEq ρ] [DecidableEq τ] [DecidableEq κ] in
theorem World.Within.answers (hw : world.Within world') (h : world.answers o answer) :
    world'.answers o answer :=
  fun hanswer => hw.fails o (h hanswer)

theorem Program.Safe.within (hw : world.Within world') (h : p.Safe world' post b) :
    p.Safe world post b := by
  induction p generalizing b with
  | done a => exact h
  | call o next ih =>
    exact ⟨hw.needs ▸ h.1, fun answer ha => ih answer (h.2 answer (hw.answers ha))⟩

theorem step_within (hw : world.Within world') {l : Label τ κ} (h : step world s l = some s') :
    step world' s l = some s' := by
  cases l with
  | call answer =>
    cases hp : s.program with
    | done a =>
      simp only [step, hp] at h
      cases h
    | call o next =>
      simp only [step, hp] at h ⊢
      obtain ⟨⟨hready, ha⟩, heq⟩ := Option.ite_none_right_eq_some.1 h
      rw [if_pos ⟨hready, hw.answers ha⟩]
      exact heq
  | ends t => exact h
  | signal k =>
    obtain ⟨hsignal, heq⟩ := Option.ite_none_right_eq_some.1 h
    rw [step, if_pos (hw.signals k hsignal)]
    exact heq

/-- A run stays one where more can happen. -/
theorem exec_within (hw : world.Within world') (h : Run.exec (step world) s ls = some s') :
    Run.exec (step world') s ls = some s' := by
  induction ls generalizing s with
  | nil => exact h
  | cons l ls ih =>
    obtain ⟨t, ht, hrest⟩ := Run.exec_cons_eq_some.1 h
    exact Run.exec_cons_eq_some.2 ⟨t, step_within hw ht, ih hrest⟩

/-! ## What holds in every run -/

theorem Books.Lent.after (hb : b.Lent) {needs : τ → List κ} (h : o.Allowed needs b) :
    (o.after answer b).Lent := by
  cases o with
  | ask | use | tell | await => exact hb
  | acquire r =>
    cases answer with
    | false => exact hb
    | true => exact fun p hp r' hr' => List.mem_cons_of_mem r (hb p hp r' hr')
  | release r =>
    intro p hp r' hr'
    have hne : r' ≠ r := fun heq => h.2 p hp (heq ▸ hr')
    exact (List.mem_erase_of_ne hne).2 (hb p hp r' hr')
  | create t rs =>
    cases answer with
    | false => exact hb
    | true =>
      intro p hp
      obtain rfl | hp := List.mem_cons.1 hp
      · exact h.2
      · exact hb p hp
  | join t => exact fun p hp => hb p (List.mem_of_mem_filter hp)

/-- **A program at any moment of a run**: its next call does no harm, the
threads have what they were lent, and where it has returned no thread is
left. -/
structure Sound (world : World ρ τ κ) (post : α → List ρ → Prop) (s : State ρ τ κ α) :
    Prop where
  allowed : ∀ o, s.program.nextOp = some o → o.Allowed world.needs s.books
  lent : s.books.Lent
  returned : ∀ a, s.program.result = some a → s.books.threads = [] ∧ post a s.books.held

/-- What is left of a program is safe. -/
structure Inv (world : World ρ τ κ) (post : α → List ρ → Prop) (s : State ρ τ κ α) :
    Prop where
  safe : s.program.Safe world post s.books
  lent : s.books.Lent

theorem Inv.sound (h : Inv world post s) : Sound world post s := by
  obtain ⟨hsafe, hlent⟩ := h
  refine ⟨fun o ho => ?_, hlent, fun a hp => ?_⟩
  · obtain ⟨next, hp⟩ := Program.nextOp_eq_some.1 ho
    rw [hp] at hsafe
    exact hsafe.1
  · cases hprogram : s.program with
    | done a' =>
      rw [hprogram] at hsafe hp
      cases hp
      exact hsafe
    | call o next =>
      rw [hprogram] at hp
      cases hp

theorem Inv.step (h : Inv world post s) {l : Label τ κ} (hstep : step world s l = some s') :
    Inv world post s' := by
  obtain ⟨hsafe, hlent⟩ := h
  cases l with
  | call answer =>
    simp only [Ownership.step] at hstep
    split at hstep
    · cases hstep
    · next o next hp =>
      split at hstep
      · next hready =>
        cases hstep
        rw [hp] at hsafe
        exact ⟨hsafe.2 answer hready.2, hlent.after hsafe.1⟩
      · cases hstep
  | ends t =>
    simp only [Ownership.step] at hstep
    split at hstep
    · cases hstep
      exact ⟨hsafe, hlent⟩
    · cases hstep
  | signal k =>
    simp only [Ownership.step] at hstep
    split at hstep
    · cases hstep
      exact ⟨hsafe.further (.set s.books k), hlent⟩
    · cases hstep

/-- **A safe program stays sound**, beside its threads and signals. -/
theorem sound_of_exec (hsafe : p.Safe world post .empty)
    (h : Run.exec (step world) (.start p) ls = some s) : Sound world post s :=
  have hstart : Inv world post (.start p) := ⟨hsafe, fun _ hp => absurd hp List.not_mem_nil⟩
  (Run.exec_invariant (fun _ _ _ hinv hstep => Inv.step hinv hstep) hstart h).sound

/-! ## What the check misses -/

/-- A flag that is waited for can be set by a signal. -/
def Op.Signalled (signals : κ → Bool) : Op ρ τ κ → Prop
  | .await k _ => signals k = true
  | _ => True

instance Op.decidableSignalled (signals : κ → Bool) :
    (o : Op ρ τ κ) → Decidable (o.Signalled signals)
  | .await _ _ => inferInstanceAs (Decidable (_ = true))
  | .ask | .acquire _ | .use _ | .release _ | .create _ _ | .tell _ _ | .join _ =>
    inferInstanceAs (Decidable True)

/-- Each flag that the program waits for can. -/
def Program.Signalled (signals : κ → Bool) : Program ρ τ κ α → Prop
  | .done _ => True
  | .call o next => o.Signalled signals ∧ ∀ answer, (next answer).Signalled signals

instance Program.decidableSignalled (signals : κ → Bool) :
    (p : Program ρ τ κ α) → Decidable (p.Signalled signals)
  | .done _ => inferInstanceAs (Decidable True)
  | .call _ next =>
    have := fun answer => decidableSignalled signals (next answer)
    inferInstanceAs (Decidable (_ ∧ ∀ _, _))

/-- What a call waits for can come. -/
theorem exists_ready (hs : o.Signalled world.signals) (h : o.Allowed world.needs b)
    (answer : Bool) (next : Bool → Program ρ τ κ α) (e : τ → Bool) :
    ∃ ls b' e', Run.exec (step world) ⟨.call o next, b, e⟩ ls = some ⟨.call o next, b', e'⟩ ∧
      o.ready b' e' = true ∧ o.after answer b' = o.after answer b := by
  cases o with
  | await k rs =>
    refine ⟨[.signal k], { b with told := Function.update b.told k true }, e, ?_, ?_, ?_⟩
    · have hsignal : world.signals k = true := hs
      rw [Run.exec_cons, step, if_pos hsignal]
      rfl
    · simp only [Op.ready, Function.update_self]
    · simp only [Op.after, Function.update_idem]
  | join t =>
    refine ⟨[.ends t], b, Function.update e t true, ?_, ?_, rfl⟩
    · rw [Run.exec_cons, step, if_pos h.1]
      rfl
    · simp only [Op.ready, Function.update_self]
  | ask | acquire | use | release | create | tell => exact ⟨[], b, e, rfl, rfl, rfl⟩

/-- **A program that is not safe does harm in some run**, by induction on
the program: up to the call that is not allowed, all are answered. -/
theorem exists_unsound (hs : p.Signalled world.signals) (h : ¬ p.Safe world post b) (e : τ → Bool) :
    ∃ ls s, Run.exec (step world) ⟨p, b, e⟩ ls = some s ∧ ¬ Sound world post s := by
  induction p generalizing b e with
  | done a => exact ⟨[], _, rfl, fun hsound => h (hsound.returned a rfl)⟩
  | call o next ih =>
    by_cases hallowed : o.Allowed world.needs b
    · have hnot : ∃ answer, world.answers o answer ∧
          ¬ (next answer).Safe world post (o.after answer b) := by
        by_contra hall
        refine h ⟨hallowed, fun answer ha => ?_⟩
        by_contra hunsafe
        exact hall ⟨answer, ha, hunsafe⟩
      obtain ⟨answer, ha, hunsafe⟩ := hnot
      obtain ⟨ls, b', e', hrun, hready, hafter⟩ := exists_ready hs.1 hallowed answer next e
      obtain ⟨ls', s, hrest, hunsound⟩ := ih answer (hs.2 answer) hunsafe (o.revive e')
      refine ⟨ls ++ .call answer :: ls', s, Run.exec_append_eq_some.2 ⟨_, hrun, ?_⟩, hunsound⟩
      refine Run.exec_cons_eq_some.2 ⟨_, ?_, hrest⟩
      simp only [step, hready, ha, and_self, if_true, hafter]
    · exact ⟨[], _, rfl, fun hsound => hallowed (hsound.allowed o rfl)⟩

/-- **The check is exact.** -/
theorem safe_iff (hs : p.Signalled world.signals) :
    p.Safe world post .empty ↔
      ∀ ls s, Run.exec (step world) (.start p) ls = some s → Sound world post s := by
  constructor
  · exact fun hsafe ls s h => sound_of_exec hsafe h
  · intro hsound
    by_contra hunsafe
    obtain ⟨ls, s, h, hunsound⟩ := exists_unsound hs hunsafe fun _ => false
    exact hunsound (hsound ls s h)

end Ownership

end WaterGateway
