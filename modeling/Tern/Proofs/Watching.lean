/-
Evaluations under watch. Something is to be shown of the signals that an evaluation ends in, unless
a moment of a certain kind has come. So the evaluation is looked at as it is and halted at every
moment: either it is halted at a moment of this kind, or it ends as it should.

* `Watch`: the signals that may be raised, and what leaving a frame, a file or a handler makes of
  them.
* `Eval.Watched`: the results of an evaluation that is halted at each moment.
* `Logic.watching`: the logic in which evaluations are watched.
* `Eval.Watched.of_descend`: a task is watched if it is of this kind, or watched part by part.
* `Eval.Watched.allows_or_comes`: what is known of a task that is watched.
-/
import Tern.Proofs.Moments

namespace Tern

/-- The signals that may be raised in a session. Those without a trace may be, and leaving a frame,
a file or a handler makes one of them of each. -/
structure Watch where
  Allows : Signal → Session → Prop
  /-- The sessions in which the innermost frame may go over to another file. -/
  Enters : Session → Prop
  fault : ∀ cause s, Allows (.fault cause []) s
  thrown : ∀ v s, Allows (.thrown v []) s
  leave : ∀ v s, Allows (.leave v) s
  fatal : ∀ error s, Allows (.fatal error) s
  frame : ∀ {signal s}, Allows signal s →
    Allows (signal.traced s.env) { s with env := s.env.pop }
  file : ∀ {signal s s' file}, Enters s →
    Session.Follows { s with env := s.env.setFile file } s' → Allows signal s' →
    Allows (signal.traced s'.env) { s' with env := s'.env.setFile s.env.file }
  handler : ∀ {signal s}, Allows signal s →
    Allows signal { s with env := s.env.popSnapshot }

namespace Eval

variable {α β : Type} {W : Watch} {K : Moment → Prop} {s s' : Session}
  {r : Option Moment → EStateM.Result Signal Session α}

/-- The results of an evaluation that is halted at a moment, or at none. -/
structure Allowed (W : Watch) (s : Session)
    (r : Option Moment → EStateM.Result Signal Session α) : Prop where
  follows : s.Follows (ending (r none))
  /-- Halting makes no difference, or it is what the evaluation ends with. -/
  halted : ∀ m, r (some m) = r none ∨ Short .levels (r (some m))
  allows : ∀ {signal s'}, r none = .error signal s' → W.Allows signal s'

/-- A moment of a kind has come, or the evaluation ends as it may. -/
def Watched (W : Watch) (K : Moment → Prop) (s : Session)
    (r : Option Moment → EStateM.Result Signal Session α) : Prop :=
  (∃ m, K m ∧ Short .levels (r (some m))) ∨ Allowed W s r

namespace Watched

/-- A value. -/
lemma ok {a : α} (h : s.Follows s') :
    Watched W K s fun _ => (.ok a s' : EStateM.Result Signal Session α) :=
  .inr ⟨h, fun _ => .inl rfl, fun h => nomatch h⟩

/-- A signal that may be raised. -/
lemma error {signal : Signal} (h : s.Follows s') (hs : W.Allows signal s') :
    Watched W K s fun _ => (.error signal s' : EStateM.Result Signal Session α) := by
  refine .inr ⟨h, fun _ => .inl rfl, fun h => ?_⟩
  cases h
  exact hs

/-- The same results, from an earlier session. -/
lemma earlier (h : s.Follows s') (hr : Watched W K s' r) : Watched W K s r :=
  hr.imp_right fun hr => { hr with follows := h.trans hr.follows }

/-- What is made of a result, if it passes on what the result is short of. -/
lemma andThen
    {c : Option Moment → EStateM.Result Signal Session α → EStateM.Result Signal Session β}
    (hr : Watched W K s r)
    (hshort : ∀ i s', Short .levels (c i (.error (.outOfFuel .levels) s')))
    (hnext : Allowed W s r → Watched W K (ending (r none)) fun i => c i (r none)) :
    Watched W K s fun i => c i (r i) := by
  have short : ∀ {i}, Short .levels (r i) → Short .levels (c i (r i)) := by
    rintro i ⟨s', h⟩
    rw [h]
    exact hshort i s'
  obtain ⟨m, hm, hs⟩ | ha := hr
  · exact .inl ⟨m, hm, short hs⟩
  · have halted : ∀ m, c (some m) (r (some m)) = c (some m) (r none) ∨
        Short .levels (c (some m) (r (some m))) := fun m =>
      (ha.halted m).imp (fun h => by rw [h]) short
    obtain ⟨m, hm, hs⟩ | hn := hnext ha
    · obtain heq | hs' := halted m
      · exact .inl ⟨m, hm, by simpa only [heq] using hs⟩
      · exact .inl ⟨m, hm, hs'⟩
    · refine .inr ⟨ha.follows.trans hn.follows, fun m => ?_, hn.allows⟩
      obtain heq | hs' := halted m
      · simpa only [heq] using hn.halted m
      · exact .inr hs'

/-- A result from which something that was put on is taken off again. -/
lemma restored {c : EStateM.Result Signal Session α → EStateM.Result Signal Session α}
    (hr : Watched W K s' r) (hshort : ∀ {result}, Short .levels result → Short .levels (c result))
    (hfollows : s'.Follows (ending (r none)) → s.Follows (ending (c (r none))))
    (hallows : Allowed W s' r → ∀ {signal t}, c (r none) = .error signal t → W.Allows signal t) :
    Watched W K s fun i => c (r i) := by
  obtain ⟨m, hm, hs⟩ | ha := hr
  · exact .inl ⟨m, hm, hshort hs⟩
  · exact .inr ⟨hfollows ha.follows, fun m => (ha.halted m).imp (congrArg c) hshort, hallows ha⟩

variable {x : Option Moment → Eval α}

lemma bind {f : Option Moment → α → Eval β} (hx : Watched W K s fun i => x i s)
    (hf : ∀ a s', x none s = .ok a s' → s.Follows s' → Watched W K s' fun i => f i a s') :
    Watched W K s fun i => (x i >>= f i) s := by
  refine andThen (c := fun i r => ((fun _ => r : Eval α) >>= f i) s) hx
    (fun _ s' => ⟨s', rfl⟩) fun ha => ?_
  cases h : x none s with
  | error signal s' => exact error (.refl s') (ha.allows h)
  | ok a s' =>
      have hl := ha.follows
      rw [h] at hl
      exact hf a s' h hl

lemma recover {handler : Option Moment → Signal → Eval α} (hx : Watched W K s fun i => x i s)
    (hshort : ∀ i lacking, handler i (.outOfFuel lacking) = throw (.outOfFuel lacking))
    (hh : ∀ signal s', W.Allows signal s' → s.Follows s' →
      Watched W K s' fun i => handler i signal s') :
    Watched W K s fun i => Eval.recover (x i) (handler i) s := by
  refine andThen (c := fun i r => Eval.recover (fun _ => r) (handler i) s) hx
    (fun i s' => ⟨s', congrFun (hshort i .levels) s'⟩) fun ha => ?_
  cases h : x none s with
  | ok a s' => exact ok (.refl s')
  | error signal s' =>
      have hl := ha.follows
      rw [h] at hl
      exact hh signal s' (ha.allows h) hl

lemma of_local {x : Eval α} (hx : Eval.Local x) : Watched W K s fun _ => x s := by
  have hs := hx s
  cases h : x s with
  | ok a s' =>
      rw [h] at hs
      exact ok hs.follows
  | error signal s' =>
      rw [h] at hs
      obtain ⟨hb, fault, rfl⟩ := hs
      exact error hb.follows (W.fault fault s')

lemma assign (name : String) (v : Value) (declare : Bool) :
    Watched W K s fun _ => Eval.assign name v declare s := by
  have hk := Keeps.assign (s := s) name v declare
  cases declare with
  | false => exact ok hk
  | true =>
      unfold Keeps Session.after at hk
      simp only [Eval.assign, tryEnv, if_true, bind_apply, get_apply] at hk ⊢
      cases hdef : s.env.define name v with
      | error fault => exact error (.refl s) (W.fault fault s)
      | ok env =>
          rw [hdef] at hk
          exact ok hk

/-- In a frame of its own, a signal gets the trace of the stack with that frame on it. -/
lemma inFrame {name file : String} {line : Nat}
    (h : s.env.depth < s.maxDepth → Watched W K { s with env := s.env.push name file line }
      fun i => x i { s with env := s.env.push name file line }) :
    Watched W K s fun i => Eval.inFrame name file line (x i) s := by
  by_cases hd : s.env.depth < s.maxDepth
  · simp only [inFrame_apply name file line _ hd]
    refine (h hd).restored short_leaveFrame.mpr (fun hf => ?_) fun ha signal t hr => ?_
    · rw [← inFrame_apply name file line _ hd, ending_apply]
      exact Keeps.inFrame fun _ => by rwa [Keeps, ← ending_apply]
    · obtain ⟨raised, s₁, hx, rfl, rfl⟩ := exists_of_leaveFrame_eq_error hr
      exact W.frame (ha.allows hx)
  · simp only [inFrame_full name file line _ (Nat.le_of_not_lt hd)]
    exact error (.refl s) (W.fault _ s)

/-- A frame that goes over to another file, from which signals may come back. -/
lemma inFile_of_allows {file : String}
    (h : Watched W K { s with env := s.env.setFile file }
      fun i => x i { s with env := s.env.setFile file })
    (hback : ∀ {signal s'}, x none { s with env := s.env.setFile file } = .error signal s' →
      Session.Follows { s with env := s.env.setFile file } s' → W.Allows signal s' →
      W.Allows (signal.traced s'.env) { s' with env := s'.env.setFile s.env.file }) :
    Watched W K s fun i => Eval.inFile file (x i) s := by
  simp only [inFile_apply]
  refine h.restored short_leaveFile.mpr (fun hf => ?_) fun ha signal t hr => ?_
  · rw [← inFile_apply, ending_apply]
    exact Keeps.inFile (by rwa [Keeps, ← ending_apply])
  · obtain ⟨raised, s₁, hx, rfl, rfl⟩ := exists_of_leaveFile_eq_error hr
    have hf := ha.follows
    rw [hx] at hf
    exact hback hx hf (ha.allows hx)

lemma handling {trace : Trace}
    (h : Watched W K { s with env := s.env.pushSnapshot trace }
      fun i => x i { s with env := s.env.pushSnapshot trace }) :
    Watched W K s fun i => Eval.handling trace (x i) s := by
  simp only [handling_apply]
  refine h.restored short_leaveHandler.mpr (fun hf => ?_) fun ha signal t hr => ?_
  · rw [← handling_apply, ending_apply]
    exact Keeps.handling (by rwa [Keeps, ← ending_apply])
  · obtain ⟨s₁, hx, rfl⟩ := exists_of_leaveHandler_eq_error hr
    exact W.handler (ha.allows hx)

end Watched

end Eval

/-- Families of computations, one for each moment to halt at, that are watched. -/
def Logic.watching (W : Watch) (K : Moment → Prop) : Logic (Option Moment) where
  Holds x s := Eval.Watched W K s fun i => x i s
  Later := Session.Follows
  Allows := W.Allows
  Enters := W.Enters
  later_refl := .refl
  later_trans := .trans
  allows_thrown := W.thrown
  allows_leave := W.leave
  allows_fatal := W.fatal
  beside := .of_local
  raise := .error (.refl _)
  bind hx hf := .bind hx fun a s' h => hf a s' ⟨none, h⟩
  recover := .recover
  mark line s := .ok (Session.follows_env (s.env.balanced_mark line))
  bindName name v s := .ok (Session.follows_env (s.env.balanced_bind name v))
  assign name v declare _ := .assign name v declare
  inFrame := .inFrame
  inFile he h := .inFile_of_allows h fun _ => W.file he
  handling := .handling
  importing relative s := .ok (Logic.following.importing relative s)

/-- What comes after a computation comes after its value without a halt. -/
lemma Logic.bindWatched {W : Watch} {K : Moment → Prop} {α β : Type} {x : Option Moment → Eval α}
    {f : Option Moment → α → Eval β} {s : Session} (hx : (Logic.watching W K).Holds x s)
    (hf : ∀ a s', x none s = .ok a s' → s.Follows s' →
      (Logic.watching W K).Holds (fun i => f i a) s') :
    (Logic.watching W K).Holds (fun i => x i >>= f i) s :=
  Eval.Watched.bind hx hf

namespace Eval

variable {W : Watch} {K : Moment → Prop} {rounds calls levels : Nat} {task : Task} {s s' : Session}

/-- A task that is of the kind, or is watched part by part. -/
lemma Watched.of_descend (h : ¬ K ⟨task, s⟩ → Watched W K s fun i => descend rounds
      (fun calls => performUntil (haltAt? i) rounds calls levels) calls task s) :
    Watched W K s fun i => performUntil (haltAt? i) rounds calls (levels + 1) task s := by
  by_cases hK : K ⟨task, s⟩
  · exact .inl ⟨_, hK, s, performUntil_halted (if_pos rfl)⟩
  · have hgo : ∀ {i}, i ≠ some ⟨task, s⟩ →
        performUntil (haltAt? i) rounds calls (levels + 1) task s = _ := fun hi =>
      performUntil_onward (haltAt?_of_ne hi)
    have hnever := hgo (Option.some_ne_none _).symm
    obtain ⟨m, hm, hs⟩ | ha := h hK
    · have hne : some m ≠ some ⟨task, s⟩ := fun h => hK (Option.some.inj h ▸ hm)
      exact .inl ⟨m, hm, by simpa only [hgo hne] using hs⟩
    · refine .inr ⟨hnever ▸ ha.follows, fun m => ?_, fun h => ha.allows (hnever ▸ h)⟩
      by_cases hself : m = ⟨task, s⟩
      · subst hself
        exact .inr ⟨s, performUntil_halted (if_pos rfl)⟩
      · rw [hgo fun h => hself (Option.some.inj h), hnever]
        exact ha.halted m

/-- What is asked for without a moment to halt at is carried out. -/
lemma performUntil_haltAt?_none (rounds calls levels : Nat) :
    performUntil (haltAt? none) rounds calls levels = perform rounds calls levels :=
  performUntil_none rounds calls levels

/-- Something that is watched ends in a signal that may be raised, in one that says what is lacking,
or a moment of the kind has come. -/
lemma Watched.allows_or_comes {α : Type} {x : Runner → Eval α} {signal : Signal}
    (hx : Watched W K s fun i => x (performUntil (haltAt? i) rounds calls levels) s)
    (h : x (perform rounds calls levels) s = .error signal s')
    (hsignal : signal ≠ .outOfFuel .levels) :
    W.Allows signal s' ∨ ∃ m, K m ∧ Comes rounds calls levels x s m := by
  obtain ⟨m, hm, u, hu⟩ | ha := hx
  · refine .inr ⟨m, hm, .levels, fun hsame => ?_⟩
    have hlack := hu.symm.trans (hsame.trans h)
    cases hlack
    exact hsignal rfl
  · exact .inl (ha.allows (by rw [performUntil_haltAt?_none, h]))

end Eval

end Tern
