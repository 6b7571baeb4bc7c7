import Mathlib.Algebra.Ring.Int.Defs
import Mathlib.Algebra.Ring.Nat
import Mathlib.Data.Int.Notation
import Mathlib.Data.List.Induction
import Mathlib.Logic.Function.Basic
import Mathlib.Tactic.Common

/-!
# Session keys

A thread's session key lives in two places, the thread-local `sessionKey` and the
shared `threadSessionMap`, which `get_session_key_from_threadId` reads with
`operator[]`. Each tool starts and ends its sessions with code of its own: all of
them generate a key, two of them destroy one, and these two pass the session where
`destroy_session_key` takes a thread.

* `SessionKeys` are the keys and the map, `KeyOp` what a thread does with them.
* `KeyRun` adds what the sessions are: which thread has a live session and under
  which key, and which entries an exit has overwritten.
* `session_keys_iff` says when the map answers for the sessions.
-/

namespace Kognizance

/-- The keys of the platform. Threads are named by their `int` ids. -/
structure SessionKeys where
  sKey : ℤ
  /-- The thread-local `sessionKey`. -/
  sessionKey : ℤ → ℤ
  threadSessionMap : ℤ → Option ℤ

namespace SessionKeys

def init : SessionKeys := ⟨0, fun _ => -1, fun _ => none⟩

/-- `generate_session_key`: `sKey` is an `int` and wraps around. -/
def generateSessionKey (st : SessionKeys) (gettid : ℤ) : SessionKeys where
  sKey := (st.sKey + 1).bmod (2 ^ 32)
  sessionKey := Function.update st.sessionKey gettid st.sKey
  threadSessionMap := Function.update st.threadSessionMap gettid (some st.sKey)

/-- `destroy_session_key`. -/
def destroySessionKey (st : SessionKeys) (threadId : ℤ) : SessionKeys :=
  { st with threadSessionMap := Function.update st.threadSessionMap threadId (some (-1)) }

/-- `get_session_key_from_threadId`: the lookup inserts 0 for an absent thread. -/
def getSessionKeyFromThreadId (st : SessionKeys) (threadId : ℤ) : ℤ × SessionKeys :=
  match st.threadSessionMap threadId with
  | some sessionId => (sessionId, st)
  | none =>
    (0, { st with threadSessionMap := Function.update st.threadSessionMap threadId (some 0) })

/-- `get_session_key`. -/
def getSessionKey (st : SessionKeys) (gettid : ℤ) : ℤ := st.sessionKey gettid

/-- The answer of a query. -/
def answer (st : SessionKeys) (threadId : ℤ) : ℤ := (st.getSessionKeyFromThreadId threadId).1

theorem answer_eq (st : SessionKeys) (t : ℤ) : st.answer t = (st.threadSessionMap t).getD 0 := by
  unfold answer getSessionKeyFromThreadId
  cases st.threadSessionMap t <;> rfl

theorem answer_generateSessionKey (st : SessionKeys) (gettid t : ℤ) :
    (st.generateSessionKey gettid).answer t = if t = gettid then st.sKey else st.answer t := by
  rw [answer_eq, answer_eq, generateSessionKey]
  dsimp only
  by_cases h : t = gettid
  · rw [h, Function.update_self, if_pos rfl, Option.getD_some]
  · rw [Function.update_of_ne h, if_neg h]

theorem answer_destroySessionKey (st : SessionKeys) (threadId t : ℤ) :
    (st.destroySessionKey threadId).answer t = if t = threadId then -1 else st.answer t := by
  rw [answer_eq, answer_eq, destroySessionKey]
  dsimp only
  by_cases h : t = threadId
  · rw [h, Function.update_self, if_pos rfl, Option.getD_some]
  · rw [Function.update_of_ne h, if_neg h]

section Query

variable (st : SessionKeys) (threadId : ℤ)

@[simp] theorem sKey_query : (st.getSessionKeyFromThreadId threadId).2.sKey = st.sKey := by
  unfold getSessionKeyFromThreadId
  cases st.threadSessionMap threadId <;> rfl

@[simp] theorem sessionKey_query :
    (st.getSessionKeyFromThreadId threadId).2.sessionKey = st.sessionKey := by
  unfold getSessionKeyFromThreadId
  cases st.threadSessionMap threadId <;> rfl

/-- The entry a query inserts is the answer it would give again. -/
@[simp] theorem answer_query (t : ℤ) :
    (st.getSessionKeyFromThreadId threadId).2.answer t = st.answer t := by
  rw [answer_eq, answer_eq]
  unfold getSessionKeyFromThreadId
  cases h : st.threadSessionMap threadId with
  | some k => rfl
  | none =>
    by_cases ht : t = threadId
    · simp [ht, h]
    · simp [Function.update_of_ne ht]

end Query

end SessionKeys

/-- The tools a build can be made for. -/
inductive SampleTool
  | sampleTool
  | sampleEBSTool
  | samplePEBSTool
  | samplePEBSBPTool
  | witchTool
  deriving DecidableEq, Repr

/-- The tools whose `tool_sessionExit` calls `destroy_session_key`. -/
def SampleTool.destroys : SampleTool → Bool
  | .samplePEBSTool => true
  | .samplePEBSBPTool => true
  | _ => false

/-- A session call on a thread, or a query about one. -/
inductive KeyOp
  | sessionInit (gettid : ℤ)
  | sessionExit (gettid : ℤ)
  | query (threadId : ℤ)
  deriving DecidableEq, Repr

def KeyOp.isInit : KeyOp → Bool
  | .sessionInit _ => true
  | _ => false

/-- The keys and the sessions of a process. -/
structure KeyRun where
  keys : SessionKeys
  /-- `WPInitFlag` of the witch tool. -/
  wpInitFlag : Bool
  /-- The key that the latest `tool_sessionInit` of a thread generated, as long as the
  thread has not run `tool_sessionExit` since. -/
  live : ℤ → Option ℤ
  /-- The thread's id was given to `destroy_session_key` since its latest
  `tool_sessionInit`. -/
  destroyed : ℤ → Bool

namespace KeyRun

def init : KeyRun := ⟨.init, false, fun _ => none, fun _ => false⟩

/-- `tool_sessionInit`, its keys. The first one of the witch tool runs `WP_Init`, which
counts the devices in a session of its own. -/
def toolSessionInit (tool : SampleTool) (st : KeyRun) (gettid : ℤ) : KeyRun :=
  let counts := tool = .witchTool && !st.wpInitFlag
  let keys := if counts then st.keys.generateSessionKey gettid else st.keys
  let keys := keys.generateSessionKey gettid
  { keys := keys
    wpInitFlag := st.wpInitFlag || counts
    live := Function.update st.live gettid (some (keys.getSessionKey gettid))
    destroyed := Function.update st.destroyed gettid false }

/-- `tool_sessionExit`, its keys: the tools that destroy a key pass the session's. -/
def toolSessionExit (tool : SampleTool) (st : KeyRun) (gettid : ℤ) : KeyRun :=
  let sessionId := st.keys.getSessionKey gettid
  let live := Function.update st.live gettid none
  if tool.destroys then
    { st with
      keys := st.keys.destroySessionKey sessionId
      live := live
      destroyed := Function.update st.destroyed sessionId true }
  else { st with live := live }

def step (tool : SampleTool) (st : KeyRun) : KeyOp → KeyRun
  | .sessionInit gettid => st.toolSessionInit tool gettid
  | .sessionExit gettid => st.toolSessionExit tool gettid
  | .query threadId => { st with keys := (st.keys.getSessionKeyFromThreadId threadId).2 }

def run (tool : SampleTool) (ops : List KeyOp) : KeyRun := ops.foldl (step tool) init

/-! ### Queries leave no trace -/

/-- Two states that only differ in entries a query has inserted. -/
structure SameAnswers (st st' : KeyRun) : Prop where
  sKey : st'.keys.sKey = st.keys.sKey
  sessionKey : st'.keys.sessionKey = st.keys.sessionKey
  wpInitFlag : st'.wpInitFlag = st.wpInitFlag
  answer : ∀ t, st'.keys.answer t = st.keys.answer t

theorem SameAnswers.generate {k k' : SessionKeys} (hs : k'.sKey = k.sKey)
    (ha : ∀ t, k'.answer t = k.answer t) (gettid t : ℤ) :
    (k'.generateSessionKey gettid).answer t = (k.generateSessionKey gettid).answer t := by
  rw [SessionKeys.answer_generateSessionKey, SessionKeys.answer_generateSessionKey, hs, ha]

theorem SameAnswers.step {tool : SampleTool} {st st' : KeyRun} (h : SameAnswers st st')
    (op : KeyOp) : SameAnswers (st.step tool op) (st'.step tool op) := by
  cases op with
  | sessionInit gettid =>
    unfold KeyRun.step toolSessionInit
    simp only [h.wpInitFlag]
    split
    · -- two keys are generated, from the same counter on both sides
      refine ⟨by simp [SessionKeys.generateSessionKey, h.sKey],
        by simp [SessionKeys.generateSessionKey, h.sKey, h.sessionKey], rfl, fun t => ?_⟩
      exact SameAnswers.generate (by simp [SessionKeys.generateSessionKey, h.sKey])
        (SameAnswers.generate h.sKey h.answer gettid) gettid t
    · -- only the session's own key is generated
      exact ⟨by simp [SessionKeys.generateSessionKey, h.sKey],
        by simp [SessionKeys.generateSessionKey, h.sKey, h.sessionKey], rfl,
        fun t => SameAnswers.generate h.sKey h.answer gettid t⟩
  | sessionExit gettid =>
    unfold KeyRun.step toolSessionExit
    simp only [SessionKeys.getSessionKey, h.sessionKey]
    split
    · -- the destroyed key is gone from both answers
      refine ⟨h.sKey, h.sessionKey, h.wpInitFlag, fun t => ?_⟩
      rw [SessionKeys.answer_destroySessionKey, SessionKeys.answer_destroySessionKey, h.answer]
    · exact ⟨h.sKey, h.sessionKey, h.wpInitFlag, h.answer⟩
  | query threadId =>
    unfold KeyRun.step
    exact ⟨by simp [h.sKey], by simp [h.sessionKey], h.wpInitFlag, fun t => by simp [h.answer t]⟩

/-- Queries can be left out of a run: what it answers afterwards is the same. -/
theorem answer_query_insert (tool : SampleTool) (ops ops' : List KeyOp) (threadId t : ℤ) :
    (run tool (ops ++ .query threadId :: ops')).keys.answer t
      = (run tool (ops ++ ops')).keys.answer t := by
  have hsame : ∀ {st st' : KeyRun}, SameAnswers st st' → ∀ os : List KeyOp,
      SameAnswers (os.foldl (KeyRun.step tool) st) (os.foldl (KeyRun.step tool) st') := by
    intro st st' h os
    induction os generalizing st st' with
    | nil => exact h
    | cons op os ih => exact ih (h.step op)
  have hquery : SameAnswers (run tool ops) ((run tool ops).step tool (.query threadId)) :=
    ⟨by simp [KeyRun.step], by simp [KeyRun.step], rfl, fun t => by simp [KeyRun.step]⟩
  simp only [run, List.foldl_append, List.foldl_cons]
  exact (hsame hquery ops').answer t

/-! ### What the keys and the map hold -/

/-- `n` keys have been generated; `d` are the threads whose entry was overwritten. -/
structure Keyed (n : ℕ) (k : SessionKeys) (d : ℤ → Bool) : Prop where
  sKey : k.sKey = (n : ℤ).bmod (2 ^ 32)
  /-- A thread holds a generated key, or -1 if it never had one. -/
  range : ∀ t, k.sessionKey t = -1 ∨ (0 ≤ k.sessionKey t ∧ k.sessionKey t < n)
  unique : ∀ t t', 0 ≤ k.sessionKey t → k.sessionKey t = k.sessionKey t' → t = t'
  answer : ∀ t, k.answer t = if d t then -1 else max (k.sessionKey t) 0

theorem Keyed.init : Keyed 0 .init fun _ => false where
  sKey := rfl
  range := fun _ => Or.inl rfl
  unique := fun t t' h _ => absurd (show (0 : ℤ) ≤ -1 from h) (by decide)
  answer := fun t => rfl

/-- As long as `sKey` does not wrap, a generated key is a new one. -/
theorem Keyed.generate {n : ℕ} {k : SessionKeys} {d : ℤ → Bool} (h : Keyed n k d)
    (hn : n < 2 ^ 31) (gettid : ℤ) :
    Keyed (n + 1) (k.generateSessionKey gettid) (Function.update d gettid false) ∧
      (k.generateSessionKey gettid).sessionKey gettid = n := by
  -- below 2^31 the counter is the number of keys drawn
  have hkey : k.sKey = n := by
    rw [h.sKey]
    exact Int.bmod_eq_of_le (by omega) (by omega)
  have hnew : (k.generateSessionKey gettid).sessionKey = Function.update k.sessionKey gettid n := by
    rw [SessionKeys.generateSessionKey, hkey]
  refine ⟨⟨?_, fun t => ?_, fun t t' ht htt' => ?_, fun t => ?_⟩, ?_⟩
  · simp only [SessionKeys.generateSessionKey, hkey]
    push_cast
    rfl
  · rw [hnew]
    by_cases ht : t = gettid
    · subst ht
      rw [Function.update_self]
      right
      omega
    · rw [Function.update_of_ne ht]
      have hr := h.range t
      omega
  · -- the new key is above all others, so no other thread has it
    rw [hnew] at ht htt'
    have hlt : ∀ u, k.sessionKey u < n := fun u => by
      have hu := h.range u
      omega
    by_cases h1 : t = gettid <;> by_cases h2 : t' = gettid
    · rw [h1, h2]
    · rw [h1, Function.update_self, Function.update_of_ne h2] at htt'
      have hu := hlt t'
      omega
    · rw [h2, Function.update_self, Function.update_of_ne h1] at htt'
      have hu := hlt t
      omega
    · rw [Function.update_of_ne h1] at ht htt'
      rw [Function.update_of_ne h2] at htt'
      exact h.unique t t' ht htt'
  · -- the answer for the own thread is the new key, and for the others it is as before
    rw [SessionKeys.answer_generateSessionKey, hnew, hkey]
    by_cases hk : t = gettid
    · subst hk
      simp
    · rw [if_neg hk, Function.update_of_ne hk, Function.update_of_ne hk]
      exact h.answer t
  · rw [hnew, Function.update_self]

/-- `destroy_session_key` overwrites the entry of whatever it is given. -/
theorem Keyed.destroy {n : ℕ} {k : SessionKeys} {d : ℤ → Bool} (h : Keyed n k d) (threadId : ℤ) :
    Keyed n (k.destroySessionKey threadId) (Function.update d threadId true) := by
  refine ⟨h.sKey, h.range, h.unique, fun t => ?_⟩
  rw [SessionKeys.answer_destroySessionKey]
  by_cases hk : t = threadId
  · rw [if_pos hk, hk, Function.update_self, if_pos rfl]
  · rw [if_neg hk, Function.update_of_ne hk]
    exact h.answer t

theorem Keyed.query {n : ℕ} {k : SessionKeys} {d : ℤ → Bool} (h : Keyed n k d) (threadId : ℤ) :
    Keyed n (k.getSessionKeyFromThreadId threadId).2 d := by
  refine ⟨?_, ?_, ?_, ?_⟩
  · rw [SessionKeys.sKey_query, h.sKey]
  · simpa using h.range
  · simpa using h.unique
  · simpa using h.answer

/-- The live sessions run under the keys of their threads. -/
def LiveKeys (st : KeyRun) : Prop :=
  ∀ t k, st.live t = some k → st.keys.sessionKey t = k ∧ 0 ≤ k

/-- After `m` calls of `tool_sessionInit` at most `m + 1` keys have been generated. -/
structure KeyInv (m : ℕ) (st : KeyRun) : Prop where
  keyed : ∃ n ≤ m + (if st.wpInitFlag then 1 else 0), Keyed n st.keys st.destroyed
  live : LiveKeys st

/-- A generated key reaches one thread, and the sessions of the others stay. -/
theorem LiveKeys.generate {st : KeyRun} (h : LiveKeys st) {k k' : SessionKeys} {gettid : ℤ}
    (hk : ∀ t, t ≠ gettid → k.sessionKey t = st.keys.sessionKey t)
    (hk' : k' = k.generateSessionKey gettid) (hnew : 0 ≤ k'.sessionKey gettid) (b : Bool)
    (d : ℤ → Bool) :
    LiveKeys ⟨k', b, Function.update st.live gettid (some (k'.getSessionKey gettid)), d⟩ := by
  intro t key ht
  by_cases h1 : t = gettid
  · subst h1
    obtain rfl : k'.getSessionKey t = key := by simpa using ht
    exact ⟨rfl, hnew⟩
  · simp only [Function.update_of_ne h1] at ht
    obtain ⟨hs, h0⟩ := h t key ht
    refine ⟨?_, h0⟩
    rw [← hs, ← hk t h1, hk', SessionKeys.generateSessionKey]
    exact Function.update_of_ne h1 _ _

theorem KeyInv.sessionInit {m : ℕ} {st : KeyRun} (h : KeyInv m st) (hm : m + 1 < 2 ^ 31)
    (tool : SampleTool) (gettid : ℤ) : KeyInv (m + 1) (st.toolSessionInit tool gettid) := by
  obtain ⟨n, hn, hk⟩ := h.keyed
  by_cases hc : (tool = .witchTool && !st.wpInitFlag) = true
  · -- `WP_Init` generates a key first
    have hflag : st.wpInitFlag = false := by simpa using (Bool.and_eq_true_iff.mp hc).2
    rw [hflag, if_neg Bool.false_ne_true] at hn
    obtain ⟨hk₁, -⟩ := hk.generate (by omega) gettid
    obtain ⟨hk₂, hnew⟩ := hk₁.generate (by omega) gettid
    rw [Function.update_idem] at hk₂
    have hst : st.toolSessionInit tool gettid =
        ⟨(st.keys.generateSessionKey gettid).generateSessionKey gettid, true,
          Function.update st.live gettid
            (some (((st.keys.generateSessionKey gettid).generateSessionKey gettid).getSessionKey
              gettid)),
          Function.update st.destroyed gettid false⟩ := by
      simp [toolSessionInit, hc]
    rw [hst]
    refine ⟨⟨n + 1 + 1, ?_, hk₂⟩, h.live.generate (fun t ht => ?_) rfl ?_ _ _⟩
    · rw [if_pos rfl]
      omega
    · exact Function.update_of_ne ht _ _
    · rw [hnew]
      omega
  · -- only the key of the session is drawn
    obtain ⟨hk₁, hnew⟩ := hk.generate (by split at hn <;> omega) gettid
    have hst : st.toolSessionInit tool gettid =
        ⟨st.keys.generateSessionKey gettid, st.wpInitFlag,
          Function.update st.live gettid
            (some ((st.keys.generateSessionKey gettid).getSessionKey gettid)),
          Function.update st.destroyed gettid false⟩ := by
      have hc' : (tool = .witchTool && !st.wpInitFlag) = false := Bool.of_not_eq_true hc
      simp only [toolSessionInit, hc', Bool.or_false, Bool.false_eq_true, if_false]
    rw [hst]
    refine ⟨⟨n + 1, ?_, hk₁⟩, h.live.generate (fun _ _ => rfl) rfl ?_ _ _⟩
    · change n + 1 ≤ m + 1 + if st.wpInitFlag then 1 else 0
      omega
    · rw [hnew]
      omega

theorem KeyInv.sessionExit {m : ℕ} {st : KeyRun} (h : KeyInv m st) (tool : SampleTool)
    (gettid : ℤ) : KeyInv m (st.toolSessionExit tool gettid) := by
  obtain ⟨n, hn, hk⟩ := h.keyed
  have hlive : ∀ t k, Function.update st.live gettid none t = some k → st.live t = some k := by
    intro t k ht
    by_cases h1 : t = gettid
    · subst h1
      simp at ht
    · rwa [Function.update_of_ne h1] at ht
  unfold toolSessionExit
  split
  · exact ⟨⟨n, hn, hk.destroy _⟩, fun t k ht => h.live t k (hlive t k ht)⟩
  · exact ⟨⟨n, hn, hk⟩, fun t k ht => h.live t k (hlive t k ht)⟩

theorem KeyInv.query {m : ℕ} {st : KeyRun} (h : KeyInv m st) (tool : SampleTool) (threadId : ℤ) :
    KeyInv m (st.step tool (.query threadId)) := by
  obtain ⟨n, hn, hk⟩ := h.keyed
  refine ⟨⟨n, hn, hk.query threadId⟩, fun t k ht => ?_⟩
  change (st.keys.getSessionKeyFromThreadId threadId).2.sessionKey t = k ∧ 0 ≤ k
  rw [SessionKeys.sessionKey_query]
  exact h.live t k ht

/-- The keys after a run with fewer than 2 ^ 31 sessions. -/
theorem keyInv_of_run (tool : SampleTool) {ops : List KeyOp}
    (hcount : ops.countP KeyOp.isInit < 2 ^ 31) :
    KeyInv (ops.countP KeyOp.isInit) (run tool ops) := by
  -- over the operations from the last one back
  induction ops using List.reverseRecOn with
  | nil => exact ⟨⟨0, Nat.le_refl 0, Keyed.init⟩, fun t k ht => by cases ht⟩
  | append_singleton ops op ih =>
    have hrun : run tool (ops ++ [op]) = (run tool ops).step tool op := by simp [run]
    rw [List.countP_append] at hcount ⊢
    have hinv := ih (by omega)
    rw [hrun]
    cases op with
    | sessionInit gettid => exact hinv.sessionInit hcount tool gettid
    | sessionExit gettid => exact hinv.sessionExit tool gettid
    | query threadId => exact hinv.query tool threadId

/-- **When the map answers for the sessions.** After any run with fewer than 2 ^ 31
sessions, the map answers the key of the thread's live session, or -1 when it has none,
exactly when the thread has a live session and its entry was not overwritten since that
began, or has none and its entry was overwritten. Live sessions have different keys, and
a query changes no later answer. -/
theorem session_keys_iff (tool : SampleTool) (ops : List KeyOp)
    (hcount : ops.countP KeyOp.isInit < 2 ^ 31) :
    (∀ t, (run tool ops).keys.answer t = ((run tool ops).live t).getD (-1) ↔
      ((run tool ops).live t ≠ none ↔ (run tool ops).destroyed t = false)) ∧
    (∀ t t' k, (run tool ops).live t = some k → (run tool ops).live t' = some k → t = t') ∧
    ∀ ops' threadId t, (run tool (ops ++ .query threadId :: ops')).keys.answer t
      = (run tool (ops ++ ops')).keys.answer t := by
  obtain ⟨⟨n, -, hk⟩, hlive⟩ := keyInv_of_run tool hcount
  refine ⟨fun t => ?_, fun t t' k ht ht' => ?_, answer_query_insert tool ops⟩
  · rw [hk.answer]
    cases hl : (run tool ops).live t with
    | some k =>
      obtain ⟨hs, h0⟩ := hlive t k hl
      -- the key of a live session is not -1, which an overwritten entry is
      cases hd : (run tool ops).destroyed t with
      | false => simpa [hs] using Int.max_eq_left h0
      | true =>
        have hne : (-1 : ℤ) ≠ k := by omega
        simp [hne]
    | none =>
      -- without a session the old key stays, or the 0 that a query inserts
      cases hd : (run tool ops).destroyed t with
      | true => simp
      | false =>
        have hne : max ((run tool ops).keys.sessionKey t) 0 ≠ -1 := by omega
        simp [hne]
  · obtain ⟨hs, h0⟩ := hlive t k ht
    obtain ⟨hs', -⟩ := hlive t' k ht'
    exact hk.unique t t' (hs ▸ h0) (hs.trans hs'.symm)

theorem session_keys_pebs :
    (run .samplePEBSTool [.sessionInit 100]).keys.answer 100 = 0 :=
  ((session_keys_iff .samplePEBSTool [.sessionInit 100] (by decide)).1 100).mpr (by decide)

/-- With the PEBS tool the session of thread 100 ends under key 0, and the map still
answers that key for it. A thread that never had a session is answered key 0 too. -/
theorem session_key_kept :
    ¬ (run .samplePEBSTool [.sessionInit 100, .sessionExit 100]).keys.answer 100
        = ((run .samplePEBSTool [.sessionInit 100, .sessionExit 100]).live 100).getD (-1) ∧
    ¬ (run .samplePEBSTool []).keys.answer 200 = ((run .samplePEBSTool []).live 200).getD (-1) := by
  decide

end KeyRun

end Kognizance
