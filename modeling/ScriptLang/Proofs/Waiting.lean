import Mathlib
import ScriptLang.Package.Files
import ScriptLang.Package.Network
import ScriptLang.Proofs.Effects

/-!
# Waits between looks

A fetch is tried again after a wait until it succeeds or no attempt is left, whatever the attempts
do (`retried_until_success_or_last_attempt`). A watched file is looked at after each wait, and its
function is called after those looks that find it with another time than the latest look before them
that found it.
-/

namespace ScriptLang.Package

open ScriptLang.Action ScriptLang.Library ScriptLang.Number

/-! ## Attempts -/

/-- So many attempts fail in a row, with a wait after each of them. -/
inductive Failures (attempt : Routine Value) (delay : Value) : Nat → Setting → Setting → Prop
  | none {s : Setting} : Failures attempt delay 0 s s
  | more {k : Nat} {s s₁ s₂ s₃ : Setting} {f : Fault} {v : Value}
      (hattempt : attempt s = .error (.fault f) s₁) (hwait : sleep delay s₁ = .ok v s₂)
      (hrest : Failures attempt delay k s₂ s₃) : Failures attempt delay (k + 1) s s₃

/-- The failure when no attempt is left; the number of attempts may have too many digits to tell
it. -/
def outOfAttempts (retries : Int) (last : String) : Routine Value :=
  match wholeText? retries with
  | some number => runtimeFault ("Network error after " ++ number ++ " attempts: " ++ last)
  | none => fail .tooManyDigits

variable {attempt : Routine Value} {delay v : Value} {f : Fault} {k : Nat} {retries : Int}
  {s s₁ : Setting}

theorem retrying_ok (n : Nat) (last : String) (h : attempt s = .ok v s₁) :
    retrying attempt delay (n + 1) last s = .ok (.ok v) s₁ := by
  have hmap : (Except.ok <$> attempt : Routine (Except String Value)) s = .ok (.ok v) s₁ := by
    show EStateM.map _ attempt s = _
    rw [EStateM.map, h]
  rw [retrying]
  exact bind_ok (onFault_ok hmap)

theorem retrying_fault (n : Nat) (last : String) (h : attempt s = .error (.fault f) s₁) :
    retrying attempt delay (n + 1) last s = (do
      if n ≠ 0 then discard <| sleep delay
      retrying attempt delay n f.message) s₁ := by
  have hmap : (Except.ok <$> attempt : Routine (Except String Value)) s = .error (.fault f) s₁ := by
    show EStateM.map _ attempt s = _
    rw [EStateM.map, h]
  have hcaught : onFault (Except.ok <$> attempt) (fun f => return .error f.message) s =
      .ok (.error f.message) s₁ := onFault_fault hmap
  rw [retrying]
  exact bind_ok hcaught

/-- While attempts are left, failures only use them up. -/
theorem Failures.retrying_add (h : Failures attempt delay k s s₁) (n : Nat) (last : String) :
    ∃ last', retrying attempt delay (n + 1 + k) last s = retrying attempt delay
      (n + 1) last' s₁ := by
  induction h generalizing last with
  | none => exact ⟨last, rfl⟩
  | @more k _ _ _ _ f v hattempt hwait _ ih =>
    obtain ⟨last', hlast⟩ := ih f.message
    refine ⟨last', (retrying_fault (n + 1 + k) last hattempt).trans ?_⟩
    rw [if_pos (by omega), ← hlast]
    have hdiscard : discard (sleep delay) _ = .ok () _ := bind_ok hwait
    exact bind_ok hdiscard

theorem retried_ok (h : retrying attempt delay retries.toNat "None" s = .ok (.ok v) s₁) :
    retried attempt (.int retries) delay s = .ok v s₁ :=
  bind_ok h

theorem retried_error {last : String}
    (h : retrying attempt delay retries.toNat "None" s = .ok (.error last) s₁) :
    retried attempt (.int retries) delay s = outOfAttempts retries last s₁ := by
  refine (bind_ok h).trans ?_
  have htext : text (.int retries) s₁ = ofExcept (s₁.quote (899 + 1) [] (.int retries)) s₁ := rfl
  rw [Setting.quote] at htext
  unfold outOfAttempts
  cases hnumber : wholeText? retries with
  | some number =>
    rw [hnumber] at htext
    exact bind_ok htext
  | none =>
    rw [hnumber] at htext
    exact bind_error htext

theorem retried_of_nonpos (h : retries ≤ 0) :
    retried attempt (.int retries) delay s = outOfAttempts retries "None" s := by
  have hn : retries.toNat = 0 := Int.toNat_of_nonpos h
  exact retried_error (hn ▸ rfl)

/-- Fetching with retries tries what a plain fetch does. After so many failures, each with a wait
after it, a success is the result if an attempt was left for it; a failure of the last attempt is
told at once, without a wait; where no attempt is allowed none is made; and where an attempt is left
but the wait for it fails, the fetch ends as the wait does. -/
theorem retried_until_success_or_last_attempt (retries : Int)
    (hfailed : Failures attempt delay k s s₁) :
    (∀ url, runNetwork .fetchWithRetry [url, .int retries, delay] =
      retried (fetch url) (.int retries) delay) ∧
    (∀ v s₂, k < retries → attempt s₁ = .ok v s₂ → retried attempt (.int retries) delay s =
      .ok v s₂) ∧
    (∀ f s₂, k + 1 = retries → attempt s₁ = .error (.fault f) s₂ →
      retried attempt (.int retries) delay s = outOfAttempts retries f.message s₂) ∧
    (retries ≤ 0 → retried attempt (.int retries) delay s = outOfAttempts retries "None" s) ∧
    (∀ f s₂ h s₃, k + 1 < retries → attempt s₁ = .error (.fault f) s₂ →
      sleep delay s₂ = .error h s₃ →
      retried attempt (.int retries) delay s = .error h s₃) := by
  refine ⟨fun _ => rfl, fun v s₂ hk hattempt => ?_, fun f s₂ hk hattempt => ?_, retried_of_nonpos,
    fun f s₂ h s₃ hk hattempt hwait => ?_⟩
  · obtain ⟨n, hn⟩ : ∃ n, retries.toNat = n + 1 + k := ⟨retries.toNat - k - 1, by omega⟩
    obtain ⟨last, hlast⟩ := hfailed.retrying_add n "None"
    exact retried_ok (hn ▸ hlast.trans (retrying_ok n last hattempt))
  · obtain ⟨last, hlast⟩ := hfailed.retrying_add 0 "None"
    have hn : retries.toNat = 0 + 1 + k := by omega
    exact retried_error (hn ▸ hlast.trans (retrying_fault 0 last hattempt))
  · obtain ⟨n, hn⟩ : ∃ n, retries.toNat = n + 1 + 1 + k := ⟨retries.toNat - k - 2, by omega⟩
    obtain ⟨last, hlast⟩ := hfailed.retrying_add (n + 1) "None"
    have hdiscard : discard (sleep delay) s₂ = .error h s₃ := bind_error hwait
    have hfault : retrying attempt delay _ last _ = _ := retrying_fault (n + 1) last hattempt
    rw [if_pos n.succ_ne_zero] at hfault
    have hends : retrying attempt delay retries.toNat "None" s = .error h s₃ :=
      hn ▸ hlast.trans (hfault.trans (bind_error hdiscard))
    exact (bind_ok rfl).trans (bind_error hends)

/-- An attempt that succeeds when no wait is planned any more. -/
def upAtLast : Routine Value := do
  if ((← get).sleeps.getD []).isEmpty then return .text "up" else runtimeFault "down"

theorem upAtLast_third_attempt :
    ∃ s, retried upAtLast (.int 3) (.int 1) { sleeps := some [none, none] } =
      .ok (.text "up") s := by
  have hfailed : Failures upAtLast (.int 1) 2 { sleeps := some [none, none] } _ :=
    .more rfl rfl (.more rfl rfl .none)
  exact ⟨_, (retried_until_success_or_last_attempt 3 hfailed).2.1 _ _ (by decide) rfl⟩

/-- A number of attempts with too many digits cannot be told. -/
theorem retried_too_many_digits :
    retried upAtLast (.int (-10 ^ 4300)) (.int 1) {} = .error (.fault .tooManyDigits) {} := by
  have hnumber : wholeText? (-10 ^ 4300) = none := by decide +kernel
  rw [retried_of_nonpos (by decide +kernel), outOfAttempts, hnumber]
  rfl

/-! ## Changes of a file -/

/-- The time that the latest look to find the file gave, with the latest look first; zero before
that. -/
def lastSeen (looks : List (Option Float)) : Float :=
  (looks.findSome? id).getD 0

/-- Whether a look finds a file with another time than the latest look before that found it. -/
def changed (looks : List (Option Float)) (look : Option Float) : Bool :=
  look.any (· != lastSeen looks)

/-- Looks at a file after each wait, and calls a function when it has changed. -/
def callOnChanges (call : Caller) (path callback interval : Value) :
    Nat → List (Option Float) → Action Unit
  | 0, _ => throw .interrupt
  | n + 1, looks => do
      discard <| sleep interval
      let look ← modifiedAt path
      if changed looks look then discard <| call callback [path]
      callOnChanges call path callback interval n (look :: looks)

theorem beq_congr_of_beq {a b : Float} (h : a == b) (t : Float) : (t == b) = (t == a) := by
  rw [Bool.eq_iff_iff]
  rw [Float.beq_iff_ne_nan_and_eq] at *
  rw [Float.beq_iff_ne_nan_and_eq]
  grind

theorem watch_eq_callOnChanges (call : Caller) (path callback interval : Value) (n : Nat)
    {last : Float} {looks : List (Option Float)} (h : ∀ t, (t == last) = (t == lastSeen looks)) :
    watch call path callback interval n last = callOnChanges call path callback interval n
      looks := by
  induction n generalizing last looks with
  | zero => rfl
  | succ n ih =>
    rw [watch, callOnChanges]
    refine bind_congr fun _ => bind_congr fun look => ?_
    cases look with
    | none =>
      exact ih h
    | some now =>
      have hlook : changed looks (some now) = !(now == last) := by rw [h]; rfl
      dsimp only
      rw [hlook]
      cases hnow : now == last with
      | true => exact ih fun t => beq_congr_of_beq hnow t
      | false => exact bind_congr fun _ => ih fun _ => rfl

/-- Watching calls the function once at each look that finds the file changed, and at no other. A
file that is gone has not changed; nor has one that is back with the time that it had. -/
theorem watch_calls_once_at_each_change (call : Caller) (path callback interval : Value) :
    (runFiles call .watch [path, callback, interval] = do
      let look ← modifiedAt path
      callOnChanges call path callback interval loopLimit [look]
      return .null) ∧
    ∀ looks, changed looks none = false ∧ changed (none :: looks) = changed looks ∧
      ∀ t, changed (some t :: looks) (some t) = (t != t) := by
  refine ⟨bind_congr fun look => ?_, fun looks => ⟨rfl, rfl, fun t => rfl⟩⟩
  have hlast (t : Float) : (t == look.getD 0) = (t == lastSeen [look]) := by cases look <;> rfl
  exact congrArg (· >>= fun _ => pure Value.null)
    (watch_eq_callOnChanges call path callback interval _ hlast)

end ScriptLang.Package
