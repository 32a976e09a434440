import Spey.Interaction.Implement
import Spey.Interaction.Mutex

/-!
# A lock makes calls atomic

The threads of a crew carry out the calls of a level above by calls below, and
some of these touch a store that all threads share. They keep the lock discipline,
a call that touches the store is made with the lock only, and a call above that
touches the store at all is carried out without giving up the lock. Then the calls
above can be taken one after another: what the threads have called is a run above,
each thread has done below what its calls above ask for, in their order, and the
store is what the calls make of it when each is carried out in one piece.

The book has the calls that are through, and `segs t` is what the thread `t` has
done of the call above that it is in. At most one of these touches the store, that
of the thread with the lock, and the store of the book is the one from before it.
-/

namespace Interaction

namespace Program

variable {E α : Type} {A : E → Type}

/-- What was called is of the kind, and so is what is left. -/
theorem After.only {kind : E → Prop} {Q : α → Unit → Prop} {p q : Program E A α} {h : History A}
    (hp : p.Obeys (.only kind) Q ()) (hq : p.After q h) :
    q.Obeys (.only kind) Q () ∧ ∀ e ∈ h, kind e.1 := by
  induction hq with
  | start => exact ⟨hp, nofun⟩
  | @step c h e next _ he x ih =>
    cases c with
    | done a => cases he
    | call e' next' =>
      cases he
      refine ⟨ih.1.2 x trivial, fun e' he' => ?_⟩
      rcases List.mem_cons.mp he' with rfl | he'
      · exact ih.1.1
      · exact ih.2 e' he'

end Program

namespace Serial

open Program Mutex

variable {E F X S W V α : Type} {A : E → Type} {B : F → Type}

/-! ## The store -/

section
variable (touches : F → Prop) (acts : Service B V)

/-- Nothing touched the store. -/
def Silent (seg : History B) : Prop := ∀ e ∈ seg, ¬ touches e.1

/-- The events take the store from the first value to the second. -/
def Ran : History B → V → V → Prop
  | [], v, v' => v' = v
  | e :: past, v, v' => ∃ u, Ran past v u ∧ ((touches e.1 ∧ acts e.1 u e.2 v') ∨ (¬ touches e.1 ∧ v' = u))

end

variable {touches : F → Prop} {acts : Service B V}

theorem ran_append {seg past : History B} {v v' : V} :
    Ran touches acts (seg ++ past) v v' ↔ ∃ u, Ran touches acts past v u ∧ Ran touches acts seg u v' := by
  induction seg generalizing v' with
  | nil => exact ⟨fun hr => ⟨v', hr, rfl⟩, fun ⟨u, hr, hu⟩ => hu ▸ hr⟩
  | cons e seg ih =>
    constructor
    · rintro ⟨u, hr, he⟩
      obtain ⟨u', hpast, hseg⟩ := ih.mp hr
      exact ⟨u', hpast, u, hseg, he⟩
    · rintro ⟨u', hpast, u, hseg, he⟩
      exact ⟨u, ih.mpr ⟨u', hpast, hseg⟩, he⟩

theorem Silent.ran {seg : History B} (hs : Silent touches seg) (v : V) : Ran touches acts seg v v := by
  induction seg with
  | nil => rfl
  | cons e past ih =>
    exact ⟨v, ih fun e' he' => hs e' (List.mem_cons_of_mem _ he'), .inr ⟨hs e List.mem_cons_self, rfl⟩⟩

theorem Silent.cons {seg : History B} {e : Event B} (hs : Silent touches seg) (he : ¬ touches e.1) :
    Silent touches (e :: seg) := by
  intro e' he'
  rcases List.mem_cons.mp he' with rfl | he'
  · exact he
  · exact hs e' he'

/-- How the world serves the calls that touch its store, and those that do not. -/
structure Stores (touches : F → Prop) (acts : Service B V) (store : W → V) (serves : Service B W) :
    Prop where
  touch : ∀ {f w x w'}, serves f w x w' → touches f → acts f (store w) x (store w')
  keep : ∀ {f w x w'}, serves f w x w' → ¬ touches f → store w' = store w

/-- The store above, with what the threads have done of their calls. -/
structure Stored (touches : F → Prop) (acts : Service B V) (role : F → Access) (store : W → V)
    (segs : Nat → History B) (v : V) (w : W) (h : History (Shared Nat B)) : Prop where
  holds : ∀ t, ¬ Silent touches (segs t) → Holds role t h
  ran : ∀ t, ¬ Silent touches (segs t) → Ran touches acts (segs t) v (store w)
  same : (∀ t, Silent touches (segs t)) → v = store w

variable {role : F → Access} {store : W → V} {locked : W → Bool} {segs : Nat → History B} {v : V}
  {w w' : W} {h : History (Shared Nat B)} {t : Nat}

/-- Beside a thread with the lock, nobody is at the store. -/
theorem Stored.ran_of_holds (hs : Stored touches acts role store segs v w h)
    (hheld : Held role locked w h) (ht : Holds role t h) :
    Ran touches acts (segs t) v (store w) ∧ ∀ t' ≠ t, Silent touches (segs t') := by
  have hothers : ∀ t' ≠ t, Silent touches (segs t') := fun t' hne => by
    by_contra hsilent
    exact hne (hheld.sole t' t (hs.holds t' hsilent) ht)
  refine ⟨?_, hothers⟩
  by_cases hsilent : Silent touches (segs t)
  · have hall : ∀ t', Silent touches (segs t') := fun t' => by
      by_cases hne : t' = t
      · rw [hne]
        exact hsilent
      · exact hothers t' hne
    rw [← hs.same hall]
    exact hsilent.ran v
  · exact hs.ran t hsilent

/-- One call below. -/
theorem Stored.step {serves : Service B W} {f : F} {x : B f}
    (hs : Stored touches acts role store segs v w h) (hheld : Held role locked w h)
    (hstores : Stores touches acts store serves) (hx : serves f w x w')
    (htouch : touches f → Holds role t h ∧ role f = .inside)
    (hengaged : ¬ Silent touches (segs t) → role f ≠ .take ∧ role f ≠ .release) :
    Stored touches acts role store (Function.update segs t (⟨f, x⟩ :: segs t)) v w'
      (⟨(t, f), x⟩ :: h) := by
  have hmine : ¬ Silent touches (⟨f, x⟩ :: segs t) → Holds role t h ∧ role f ≠ .take ∧ role f ≠ .release := by
    intro hsilent
    by_cases hf : touches f
    · obtain ⟨hholds, hrole⟩ := htouch hf
      rw [hrole]
      exact ⟨hholds, nofun, nofun⟩
    · have hseg : ¬ Silent touches (segs t) := fun hseg => hsilent (hseg.cons hf)
      exact ⟨hs.holds t hseg, hengaged hseg⟩
  have hrun : Holds role t h → Ran touches acts (⟨f, x⟩ :: segs t) v (store w') := by
    intro hholds
    refine ⟨store w, (hs.ran_of_holds hheld hholds).1, ?_⟩
    by_cases hf : touches f
    · exact .inl ⟨hf, hstores.touch hx hf⟩
    · exact .inr ⟨hf, hstores.keep hx hf⟩
  refine ⟨fun t' ht' => ?_, fun t' ht' => ?_, fun hall => ?_⟩
  · by_cases hne : t' = t
    · subst hne
      rw [Function.update_self] at ht'
      obtain ⟨hholds, htake, hrelease⟩ := hmine ht'
      exact (holds_cons_other htake hrelease t').mpr hholds
    · rw [Function.update_of_ne hne] at ht'
      exact (holds_cons_ne (Ne.symm hne)).mpr (hs.holds t' ht')
  · by_cases hne : t' = t
    · subst hne
      rw [Function.update_self] at ht' ⊢
      exact hrun (hmine ht').1
    · rw [Function.update_of_ne hne] at ht' ⊢
      -- another thread is at the store, so this call does not touch it
      have hf : ¬ touches f := fun hf =>
        hne (hheld.sole t' t (hs.holds t' ht') (htouch hf).1)
      rw [hstores.keep hx hf]
      exact hs.ran t' ht'
  · have hself := hall t
    rw [Function.update_self] at hself
    have hf : ¬ touches f := hself ⟨f, x⟩ List.mem_cons_self
    rw [hstores.keep hx hf]
    refine hs.same fun t' => ?_
    by_cases hne : t' = t
    · rw [hne]
      exact fun e he => hself e (List.mem_cons_of_mem _ he)
    · have hall' := hall t'
      rwa [Function.update_of_ne hne] at hall'

/-! ## The book -/

/-- A call above that is through, with what has been done for it below. -/
structure Piece (A : E → Type) (B : F → Type) where
  thread : Nat
  event : Event A
  work : History B

/-- The calls above, the latest one first. -/
abbrev Book (A : E → Type) (B : F → Type) := List (Piece A B)

/-- The event of a run above. -/
def Piece.shared (p : Piece A B) : Event (Shared Nat A) := ⟨(p.thread, p.event.1), p.event.2⟩

/-- What has been done below by one thread. -/
def workOf (t : Nat) (book : Book A B) : History B :=
  (book.filter fun p => p.thread = t).flatMap Piece.work

theorem workOf_cons_self {p : Piece A B} {book : Book A B} :
    workOf p.thread (p :: book) = p.work ++ workOf p.thread book := by
  simp [workOf]

theorem workOf_cons_ne {p : Piece A B} {book : Book A B} {t : Nat} (ht : p.thread ≠ t) :
    workOf t (p :: book) = workOf t book := by
  simp [workOf, ht]

/-- The calls above are those of a run of the threads above; each has been carried out
in one piece, from a state where `G` holds; and one after another they take the
store from `v₀` to `v`. -/
structure Booked (impl : (e : E) → Action B X S (A e)) (G : S → Prop) (touches : F → Prop)
    (acts : Service B V) (creates : Creates A α) (first : List (Program E A α)) (v₀ : V)
    (above : List (Program E A α)) (v : V) (book : Book A B) : Prop where
  crew : Crew creates (fun _ _ _ (_ : Unit) => True) first () above () (book.map Piece.shared)
  worked : ∀ p ∈ book, ∃ s s', G s ∧ (impl p.event.1 s).After (.done (.ok p.event.2, s')) p.work
  ran : Ran touches acts (book.flatMap Piece.work) v₀ v

section
variable {impl : (e : E) → Action B X S (A e)} {G : S → Prop} {createsAbove : Creates A α} {v₀ v' : V}
  {firstAbove above begun : List (Program E A α)} {book : Book A B}

theorem Booked.step {e : E} {next : A e → Program E A α} {y : A e} {s s' : S} {seg : History B}
    (hb : Booked impl G touches acts createsAbove firstAbove v₀ above v book)
    (ht : above[t]? = some (.call e next)) (hs : G s) (he : (impl e s).After (.done (.ok y, s')) seg)
    (hran : Ran touches acts seg v v') (hbegun : createsAbove ⟨e, y⟩ begun) :
    Booked impl G touches acts createsAbove firstAbove v₀ (above.set t (next y) ++ begun) v'
      (⟨t, ⟨e, y⟩, seg⟩ :: book) where
  crew := hb.crew.step ht trivial hbegun
  worked := by
    intro p hp
    rcases List.mem_cons.mp hp with rfl | hp
    · exact ⟨s, s', hs, he⟩
    · exact hb.worked p hp
  ran := ran_append.mpr ⟨v, hb.ran, hran⟩

end

/-! ## The threads -/

/-- How a thread above and one below go together; `seg` is what has been done of
the call above. A call that is through is left behind at once, unless it made no
call at all. -/
inductive Matches (impl : (e : E) → Action B X S (A e)) (G : S → Prop) :
    Program E A α → Program F B (Except X α × S) → History B → Prop
  | returned (a : α) (s : S) : Matches impl G (.done a) (.done (.ok a, s)) []
  | within {e : E} {next : A e → Program E A α} {s : S} {rest : Program F B (Except X (A e) × S)}
      {seg : History B} (hs : G s) (hrest : (impl e s).After rest seg)
      (hopen : ∀ x s', rest = .done (.ok x, s') → seg = []) :
      Matches impl G (.call e next) (resume impl next rest) seg

theorem matches_start (impl : (e : E) → Action B X S (A e)) {G : S → Prop} (p : Program E A α) {s : S}
    (hs : G s) : Matches impl G p (p.implement impl s) [] := by
  cases p with
  | done a => exact .returned a s
  | call e next => exact .within hs .start fun _ _ _ => rfl

/-- The threads below are those above, at their start. -/
def Begun (impl : (e : E) → Action B X S (A e)) (G : S → Prop) (above : List (Program E A α))
    (below : List (Program F B (Except X α × S))) : Prop :=
  below.length = above.length ∧
    ∀ (i : Nat) (q : Program F B (Except X α × S)), below[i]? = some q →
      ∃ (p : Program E A α) (s : S), above[i]? = some p ∧ G s ∧ q = p.implement impl s

/-- The threads below are those above, each where it is. -/
def Abreast (impl : (e : E) → Action B X S (A e)) (G : S → Prop) (above : List (Program E A α))
    (below : List (Program F B (Except X α × S))) (segs : Nat → History B) : Prop :=
  below.length = above.length ∧
    ∀ (t : Nat) (q : Program F B (Except X α × S)), below[t]? = some q →
      ∃ p : Program E A α, above[t]? = some p ∧ Matches impl G p q (segs t)

/-- What the states keep from call to call. -/
def Steady (impl : (e : E) → Action B X S (A e)) (G : S → Prop) : Prop :=
  ∀ e s x s' seg, G s → (impl e s).After (.done (.ok x, s')) seg → G s'

/-- The calls are carried out either without the lock being given up or without
the store being touched. -/
structure Locked (impl : (e : E) → Action B X S (A e)) (touches : F → Prop) (role : F → Access) :
    Prop where
  inside : ∀ f, touches f → role f = .inside
  calls : ∀ e, (∀ s, (impl e s).Obeys (.only fun f => role f ≠ .take ∧ role f ≠ .release)
      (fun _ _ => True) ()) ∨ ∀ s, (impl e s).Obeys (.only fun f => ¬ touches f) (fun _ _ => True) ()

/-- A call below creates threads where it ends a call above that creates them. -/
structure Begets (impl : (e : E) → Action B X S (A e)) (G : S → Prop)
    (creates : Creates B (Except X α × S)) (above : Creates A α) : Prop where
  idle : ∀ {e s y s'}, impl e s = .done (.ok y, s') → above ⟨e, y⟩ []
  last : ∀ {e s f k x seg new y s'}, (impl e s).After (.call f k) seg → creates ⟨f, x⟩ new →
    k x = .done (.ok y, s') → ∃ begun, above ⟨e, y⟩ begun ∧ Begun impl G begun new
  inner : ∀ {e s f k x seg new}, (impl e s).After (.call f k) seg → creates ⟨f, x⟩ new →
    (∀ y s', k x ≠ .done (.ok y, s')) → new = []

section
variable {impl : (e : E) → Action B X S (A e)} {G : S → Prop} {createsAbove : Creates A α} {v₀ : V}
  {firstAbove above : List (Program E A α)} {book : Book A B}
  {creates : Creates B (Except X α × S)} {f : F} {k : B f → Program F B (Except X α × S)}

/-- The same list, but for the thread `t`. -/
def SameBut (t : Nat) (above above' : List (Program E A α)) : Prop :=
  above'.length = above.length ∧ ∀ t' ≠ t, above'[t']? = above[t']?

/-- The thread `t` is about to make the call `f`, as the next one or the first one of a call above. -/
structure Poised (impl : (e : E) → Action B X S (A e)) (G : S → Prop) (f : F)
    (k : B f → Program F B (Except X α × S)) (t : Nat) (seg : History B)
    (above : List (Program E A α)) (e : E) (next : A e → Program E A α) (s : S)
    (k' : B f → Program F B (Except X (A e) × S)) : Prop where
  thread : above[t]? = some (.call e next)
  state : G s
  call : (impl e s).After (.call f k') seg
  left : k = fun x => resume impl next (k' x)

/-- Calls above that make no call are passed over. -/
theorem pass {a : Program E A α} {s : S} (hbegets : Begets impl G creates createsAbove)
    (hsteady : Steady impl G)
    (hb : Booked impl G touches acts createsAbove firstAbove v₀ above v book)
    (ht : above[t]? = some a) (hs : G s) (he : a.implement impl s = .call f k) :
    ∃ above' book' e next s' k', Booked impl G touches acts createsAbove firstAbove v₀ above' v book' ∧
      (∀ t', workOf t' book' = workOf t' book) ∧
        SameBut t above above' ∧ Poised impl G f k t [] above' e next s' k' := by
  induction a generalizing above book s with
  | done a => cases he
  | call e next ih =>
    rw [implement_call] at he
    cases hrest : impl e s with
    | call f' k' =>
      rw [hrest] at he
      cases he
      exact ⟨above, book, e, next, s, k', hb, fun _ => rfl, ⟨rfl, fun _ _ => rfl⟩, ht, hs, hrest ▸ .start, rfl⟩
    | done r =>
      obtain ⟨r, s'⟩ := r
      rw [hrest] at he
      cases r with
      | error y => cases he
      | ok y =>
        have hafter : (impl e s).After (.done (.ok y, s')) [] := hrest ▸ .start
        have hran : Ran touches acts ([] : History B) v v := rfl
        have hnext := hb.step ht hs hafter hran (hbegets.idle hrest)
        obtain ⟨hlt, -⟩ := List.getElem?_eq_some_iff.mp ht
        rw [List.append_nil] at hnext
        obtain ⟨above', book', e', next', s'', k', hb', hwork, hsame, hpoised⟩ :=
          ih y hnext (List.getElem?_set_self hlt) (hsteady e s y s' [] hs hafter) he
        refine ⟨above', book', e', next', s'', k', hb', fun t' => ?_, ⟨?_, fun t' ht' => ?_⟩, hpoised⟩
        · rw [hwork t']
          by_cases hne : t = t'
          · subst hne
            exact workOf_cons_self
          · exact workOf_cons_ne hne
        · rw [hsame.1, List.length_set]
        · rw [hsame.2 t' ht', List.getElem?_set_ne (Ne.symm ht')]

/-- New threads have done nothing of a call. -/
theorem Abreast.append {below new : List (Program F B (Except X α × S))} {begun : List (Program E A α)}
    (habreast : Abreast impl G above below segs) (hbegun : Begun impl G begun new)
    (hnil : ∀ t, above.length ≤ t → segs t = []) : Abreast impl G (above ++ begun) (below ++ new) segs := by
  refine ⟨?_, fun t q hq => ?_⟩
  · rw [List.length_append, List.length_append, habreast.1, hbegun.1]
  · rw [List.getElem?_append] at hq
    split_ifs at hq with hlt
    · obtain ⟨p, hp, hmatch⟩ := habreast.2 t q hq
      refine ⟨p, ?_, hmatch⟩
      rw [List.getElem?_append_left (by rw [← habreast.1]; exact hlt), hp]
    · obtain ⟨p, s, hp, hs, rfl⟩ := hbegun.2 _ q hq
      rw [habreast.1] at hp hlt
      refine ⟨p, ?_, ?_⟩
      · rw [List.getElem?_append_right (Nat.le_of_not_lt hlt), hp]
      · rw [hnil t (Nat.le_of_not_lt hlt)]
        exact matches_start impl p hs

end

end Serial

end Interaction
