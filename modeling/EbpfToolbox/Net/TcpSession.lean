import EbpfToolbox.Lib.Machine
import EbpfToolbox.Net.TcpMonitor

/-!
# TCP sessions over whole runs

The probes in any order, on any sockets and CPUs, with failing insertions and
evictions. Two inequalities bound what is settled and closed by what was
attempted. For the retransmit counts every stored session gets a number of its
own (`Ghost`), so that a count can be compared with the probes that found that
very session and not another one at the same address.
-/

namespace EbpfToolbox.Net.TcpMonitor

open Common Lib

variable {n : ℕ}

/-! ## Settled handshakes and closes -/

/-- 1 for a session whose handshake is not settled yet. -/
def unsettled (sess : TcpSess) : ℕ := if sess.handshakeReported then 0 else 1

/-- What a probe settles, and leaves to be settled, was there before or is attempted now. -/
theorem settlement_balance (ctrl : Ctrl) (old : Option TcpSess) (p : Probe n) :
    p.settlements ctrl old + (p.session ctrl old).elim 0 unsettled ≤
      old.elim 0 unsettled + p.attempts ctrl := by
  cases p with
  | connect family cur sk a =>
      simp only [Probe.settlements, Probe.session, Probe.attempts]
      cases recorded ctrl cur <;> cases a.updateFails <;> simp [newSess, unsettled]
  | connectExit family sk sock ret =>
      simp only [Probe.settlements, Probe.session, Probe.attempts]
      split_ifs
      · simp
      · cases old <;> simp [unsettled]
  | finishConnect sk x =>
      cases old with
      | none => simp [Probe.settlements, Probe.session, Probe.attempts]
      | some sess =>
          cases hs : settles ctrl sess with
          | false => simp [Probe.settlements, Probe.session, Probe.attempts, hs]
          | true =>
              have hrep : sess.handshakeReported = false := by
                simpa using (Bool.and_eq_true_iff.mp hs).2
              have hnew : (settled ctrl sess x).handshakeReported = true := by
                simp only [settled]
                split_ifs <;> simp
              simp [Probe.settlements, Probe.session, Probe.attempts, hs, unsettled, hrep, hnew]
  | retransmit sk x =>
      cases old with
      | none => simp [Probe.settlements, Probe.session, Probe.attempts]
      | some sess =>
          simp only [Probe.settlements, Probe.session, Probe.attempts, Option.map_some,
            Option.elim_some]
          have hsame : unsettled (retransmitted sess) = unsettled sess := rfl
          split_ifs
          · rw [hsame, Nat.zero_add, Nat.add_zero]
          · rw [Nat.zero_add, Nat.add_zero]
  | close sk x => simp [Probe.settlements, Probe.session]
  | evict sk => simp [Probe.settlements, Probe.session]

/-- The same for closed sessions and live ones. -/
theorem closure_balance (ctrl : Ctrl) (old : Option TcpSess) (p : Probe n) :
    p.closures ctrl old + ((p.session ctrl old).elim 0 fun _ => 1) ≤
      (old.elim 0 fun _ => 1) + p.attempts ctrl := by
  cases p with
  | connect family cur sk a =>
      simp only [Probe.closures, Probe.session, Probe.attempts]
      cases recorded ctrl cur <;> cases a.updateFails <;> simp
  | connectExit family sk sock ret =>
      simp only [Probe.closures, Probe.session, Probe.attempts]
      split_ifs
      · simp
      · cases old <;> simp
  | finishConnect sk x => cases old <;> simp [Probe.closures, Probe.session]
  | retransmit sk x => cases old <;> simp [Probe.closures, Probe.session]
  | close sk x =>
      cases old with
      | none => simp [Probe.closures, Probe.session]
      | some sess =>
          simp only [Probe.closures, Probe.session, Option.elim_some, Option.elim_none]
          split_ifs <;> omega
  | evict sk => simp [Probe.closures, Probe.session]

/-- What is settled, closed and live never exceeds what was attempted. -/
structure Bounded (s : State n) : Prop where
  settled : s.stats.total (·.settledCount) + s.sessMap.weight unsettled ≤
    s.stats.total (·.connectAttempted)
  closed : s.stats.total (·.clCount) + s.sessMap.size ≤ s.stats.total (·.connectAttempted)

theorem Bounded.step {s : State n} (h : Bounded s) (ctrl : Ctrl) (p : Probe n) :
    Bounded (p.run ctrl s) := by
  have hdo := p.run_does ctrl s
  have hother : ∀ k, k ≠ p.sk → (p.run ctrl s).sessMap.get k = s.sessMap.get k :=
    fun k hk => hdo.get_of_ne hk
  have hown := hdo.get_sk
  constructor
  · have hw := BpfMap.weight_congr unsettled hother
    have hb := settlement_balance ctrl (s.sessMap.get p.sk) p
    have := h.settled
    rw [hown] at hw
    rw [hdo.settled, hdo.attempted]
    omega
  · have hw := BpfMap.weight_congr (fun _ => 1) hother
    have hb := closure_balance ctrl (s.sessMap.get p.sk) p
    have := h.closed
    rw [hown] at hw
    rw [hdo.closed, hdo.attempted]
    unfold BpfMap.size at *
    omega

/-! ## Numbering the sessions -/

/-- `sid sk` is the number of the session last stored at `sk`, `fresh` the next
number. `hits i` has one entry for each retransmit probe that found session `i`:
the count in the event it submitted, `none` when the ring buffer was full.
`closes` lists the CLOSE events with the number of the closed session. -/
structure Ghost where
  sid : UInt64 → ℕ
  fresh : ℕ
  hits : ℕ → List (Option UInt32)
  closes : List (ℕ × UInt32)

def Ghost.start : Ghost := ⟨fun _ => 0, 0, fun _ => [], []⟩

def Ghost.step (ctrl : Ctrl) (s s' : State n) (g : Ghost) : Probe n → Ghost
  | .connect _ cur sk a =>
      if recorded ctrl cur && !a.updateFails then
        { g with sid := Function.update g.sid sk g.fresh, fresh := g.fresh + 1 }
      else g
  | .retransmit sk _ =>
      if (s.sessMap.get sk).isSome then
        { g with
          hits := Function.update g.hits (g.sid sk)
            (g.hits (g.sid sk) ++ [(submitted s s').head?.map (·.retransCnt)]) }
      else g
  | .close sk _ =>
      { g with closes := g.closes ++ (submitted s s').map fun e => (g.sid sk, e.retransCnt) }
  | _ => g

/-- The probes with the numbering: any probe may fire anywhere. -/
def numbered (n : ℕ) (ctrl : Ctrl) : Machine (State n × Ghost) (Probe n) where
  init := (State.start n, Ghost.start)
  step s p := (p.run ctrl s.1, s.2.step ctrl s.1 (p.run ctrl s.1) p)
  Allowed _ _ := True

/-- The invariant of the numbering. Each live session has a number of its own, is
one the filter lets through, and counts the probes that found it modulo 2^32. -/
structure Numbered (ctrl : Ctrl) (s : State n × Ghost) : Prop where
  live : ∀ sk sess, s.1.sessMap.get sk = some sess →
    s.2.sid sk < s.2.fresh ∧ sessionAllowed ctrl sess = true ∧
      sess.retransCnt = UInt32.ofNat (s.2.hits (s.2.sid sk)).length
  distinct : ∀ sk sk', (s.1.sessMap.get sk).isSome → (s.1.sessMap.get sk').isSome →
    s.2.sid sk = s.2.sid sk' → sk = sk'
  future : ∀ i, s.2.fresh ≤ i → s.2.hits i = []
  counts : ∀ i (j : ℕ) c, (s.2.hits i)[j]? = some (some c) → c = UInt32.ofNat (j + 1)
  closed : ∀ i c, (i, c) ∈ s.2.closes →
    i < s.2.fresh ∧ c = UInt32.ofNat (s.2.hits i).length ∧
      ∀ sk, (s.1.sessMap.get sk).isSome → s.2.sid sk ≠ i

theorem newSess_allowed {ctrl : Ctrl} {cur : Task} (h : recorded ctrl cur = true)
    (a : ConnectArgs n) :
    sessionAllowed ctrl
      (newSess (appCurrentPidTgidNs cur ctrl.pidNsDev ctrl.pidNsIno) a) = true := by
  obtain ⟨hen, _, htarget⟩ := of_decide_eq_true h
  simp only [sessionAllowed, hen, Bool.true_eq_false, if_false]
  apply decide_eq_true
  simp only [newSess]
  tauto

/-- A probe that stores no new session and has none to count: its session may
vanish or change its other fields, the numbering stays. -/
theorem Numbered.shrink {ctrl : Ctrl} {s : State n} {g : Ghost} (h : Numbered ctrl (s, g))
    {s' : State n} {p : Probe n} (hdo : p.Does ctrl s s')
    (hown : ∀ sess', p.session ctrl (s.sessMap.get p.sk) = some sess' →
      ∃ sess, s.sessMap.get p.sk = some sess ∧ sess'.tgid = sess.tgid ∧
        sess'.retransCnt = sess.retransCnt) :
    Numbered ctrl (s', g) := by
  have hs : ∀ sk sess', s'.sessMap.get sk = some sess' → ∃ sess, s.sessMap.get sk = some sess ∧
      sess'.tgid = sess.tgid ∧ sess'.retransCnt = sess.retransCnt := by
    intro sk sess' hsk
    by_cases hp : sk = p.sk
    · subst hp
      exact hown sess' (hdo.get_sk.symm.trans hsk)
    · exact ⟨sess', (hdo.get_of_ne hp).symm.trans hsk, rfl, rfl⟩
  have hsome : ∀ sk, (s'.sessMap.get sk).isSome → (s.sessMap.get sk).isSome := by
    intro sk hsk
    obtain ⟨sess', hsess'⟩ := Option.isSome_iff_exists.mp hsk
    obtain ⟨sess, hsess, _⟩ := hs sk sess' hsess'
    simp [hsess]
  refine ⟨?_, ?_, h.future, h.counts, ?_⟩
  · intro sk sess' hsess'
    obtain ⟨sess, hsess, htgid, hcnt⟩ := hs sk sess' hsess'
    obtain ⟨hlt, hall, hret⟩ := h.live sk sess hsess
    refine ⟨hlt, ?_, hcnt.trans hret⟩
    simpa [sessionAllowed, htgid] using hall
  · intro sk sk' hsk hsk'
    exact h.distinct sk sk' (hsome sk hsk) (hsome sk' hsk')
  · intro i c hic
    obtain ⟨hlt, hc, hno⟩ := h.closed i c hic
    exact ⟨hlt, hc, fun sk hsk => hno sk (hsome sk hsk)⟩

/-- A connect that stores its session takes a fresh number. -/
theorem Numbered.store {ctrl : Ctrl} {s : State n} {g : Ghost} (h : Numbered ctrl (s, g))
    {s' : State n} (sk : UInt64) {sess : TcpSess}
    (hs : ∀ k, s'.sessMap.get k = if k = sk then some sess else s.sessMap.get k)
    (hall : sessionAllowed ctrl sess = true) (hcnt : sess.retransCnt = 0) :
    Numbered ctrl (s', { g with sid := Function.update g.sid sk g.fresh, fresh := g.fresh + 1 }) := by
  have hold : ∀ k, k ≠ sk → (s'.sessMap.get k).isSome →
      (s.sessMap.get k).isSome ∧ g.sid k < g.fresh := by
    intro k hk hsk
    rw [hs, if_neg hk] at hsk
    obtain ⟨sess', hsess'⟩ := Option.isSome_iff_exists.mp hsk
    exact ⟨hsk, (h.live k sess' hsess').1⟩
  refine ⟨?_, ?_, ?_, h.counts, ?_⟩
  · intro k sess' hk
    by_cases hks : k = sk
    · subst hks
      rw [hs, if_pos rfl] at hk
      obtain rfl := Option.some.inj hk
      simp only [Function.update_self]
      rw [h.future g.fresh le_rfl]
      exact ⟨Nat.lt_succ_self _, hall, hcnt⟩
    · rw [hs, if_neg hks] at hk
      simp only [Function.update_of_ne hks]
      obtain ⟨hlt, hrest⟩ := h.live k sess' hk
      exact ⟨Nat.lt_succ_of_lt hlt, hrest⟩
  · intro k k' hk hk' heq
    by_cases hks : k = sk <;> by_cases hks' : k' = sk
    · rw [hks, hks']
    · obtain ⟨_, hlt⟩ := hold k' hks' hk'
      simp only [hks, Function.update_self, Function.update_of_ne hks'] at heq
      omega
    · obtain ⟨_, hlt⟩ := hold k hks hk
      simp only [hks', Function.update_self, Function.update_of_ne hks] at heq
      omega
    · simp only [Function.update_of_ne hks, Function.update_of_ne hks'] at heq
      exact h.distinct k k' (hold k hks hk).1 (hold k' hks' hk').1 heq
  · intro i hi
    exact h.future i (Nat.le_of_succ_le hi)
  · intro i c hic
    obtain ⟨hlt, hc, hno⟩ := h.closed i c hic
    refine ⟨Nat.lt_succ_of_lt hlt, hc, fun k hk => ?_⟩
    by_cases hks : k = sk
    · simp only [hks, Function.update_self]
      exact Nat.ne_of_gt hlt
    · simp only [Function.update_of_ne hks]
      exact hno k (hold k hks hk).1

/-- A retransmit probe that finds a session adds one hit to that session only. -/
theorem Numbered.hit {ctrl : Ctrl} {s : State n} {g : Ghost} (h : Numbered ctrl (s, g))
    {s' : State n} {sk : UInt64} {sess : TcpSess} (hg : s.sessMap.get sk = some sess)
    (hs : ∀ k, s'.sessMap.get k = if k = sk then some (retransmitted sess) else s.sessMap.get k)
    {o : Option UInt32} (ho : ∀ c, o = some c → c = sess.retransCnt + 1) :
    Numbered ctrl (s', { g with
      hits := Function.update g.hits (g.sid sk) (g.hits (g.sid sk) ++ [o]) }) := by
  obtain ⟨hlt, hall, hcnt⟩ := h.live sk sess hg
  have hnext : sess.retransCnt + 1 = UInt32.ofNat ((g.hits (g.sid sk)).length + 1) := by
    rw [hcnt, UInt32.ofNat_add]
    rfl
  have hsome : ∀ k, (s'.sessMap.get k).isSome → (s.sessMap.get k).isSome := by
    intro k hk
    by_cases hks : k = sk
    · simp [hks, hg]
    · rwa [hs, if_neg hks] at hk
  -- no other live session has the number of this one
  have hne : ∀ k, k ≠ sk → (s'.sessMap.get k).isSome → g.sid k ≠ g.sid sk := fun k hks hk heq =>
    hks (h.distinct k sk (hsome k hk) (by simp [hg]) heq)
  refine ⟨?_, ?_, ?_, ?_, ?_⟩
  · intro k sess' hk
    by_cases hks : k = sk
    · subst hks
      rw [hs, if_pos rfl] at hk
      obtain rfl := Option.some.inj hk
      refine ⟨hlt, ?_, ?_⟩
      · exact hall
      · simpa [retransmitted] using hnext
    · have hsid := hne k hks (by simp [hk])
      rw [hs, if_neg hks] at hk
      simp only [Function.update_of_ne hsid]
      exact h.live k sess' hk
  · intro k k' hk hk'
    exact h.distinct k k' (hsome k hk) (hsome k' hk')
  · intro i hi
    have hsid : i ≠ g.sid sk := fun he => by
      subst he
      exact absurd hlt (Nat.not_lt.mpr hi)
    simp only [Function.update_of_ne hsid]
    exact h.future i hi
  · intro i j c hc
    by_cases hi : i = g.sid sk
    · subst hi
      simp only [Function.update_self] at hc
      rcases Nat.lt_or_ge j (g.hits (g.sid sk)).length with hj | hj
      · rw [List.getElem?_append_left hj] at hc
        exact h.counts _ j c hc
      · -- the new entry: its event carries the count after the increment
        rw [List.getElem?_append_right hj, List.getElem?_singleton] at hc
        split_ifs at hc with hzero
        have hjlen : j = (g.hits (g.sid sk)).length := by omega
        rw [ho c (Option.some.inj hc), hnext, hjlen]
    · simp only [Function.update_of_ne hi] at hc
      exact h.counts i j c hc
  · intro i c hic
    obtain ⟨hlt', hc, hno⟩ := h.closed i c hic
    have hsid : i ≠ g.sid sk := fun he => hno sk (by simp [hg]) he.symm
    simp only [Function.update_of_ne hsid]
    exact ⟨hlt', hc, fun k hk => hno k (hsome k hk)⟩

/-- A close removes its session and reports the hits the session had. -/
theorem Numbered.drop {ctrl : Ctrl} {s : State n} {g : Ghost} (h : Numbered ctrl (s, g))
    {s' : State n} {sk : UInt64} {sess : TcpSess} (hg : s.sessMap.get sk = some sess)
    (hs : ∀ k, s'.sessMap.get k = if k = sk then none else s.sessMap.get k)
    (cs : List UInt32) (hcs : ∀ c ∈ cs, c = sess.retransCnt) :
    Numbered ctrl (s', { g with closes := g.closes ++ cs.map fun c => (g.sid sk, c) }) := by
  have hold : ∀ k, (s'.sessMap.get k).isSome → k ≠ sk ∧ (s.sessMap.get k).isSome := by
    intro k hk
    rw [hs] at hk
    by_cases hks : k = sk
    · simp [hks] at hk
    · exact ⟨hks, by rwa [if_neg hks] at hk⟩
  obtain ⟨hlt, _, hcnt⟩ := h.live sk sess hg
  refine ⟨?_, ?_, h.future, h.counts, ?_⟩
  · intro k sess' hk
    rw [hs] at hk
    split_ifs at hk
    exact h.live k sess' hk
  · intro k k' hk hk'
    exact h.distinct k k' (hold k hk).2 (hold k' hk').2
  · intro i c hic
    rcases List.mem_append.mp hic with hic | hic
    · obtain ⟨hlt', hc, hno⟩ := h.closed i c hic
      exact ⟨hlt', hc, fun k hk => hno k (hold k hk).2⟩
    · obtain ⟨c', hc', heq⟩ := List.mem_map.mp hic
      obtain ⟨rfl, rfl⟩ := Prod.mk.inj heq
      refine ⟨hlt, (hcs _ hc').trans hcnt, fun k hk heq' => ?_⟩
      exact (hold k hk).1 (h.distinct k sk (hold k hk).2 (by simp [hg]) heq')

/-- One probe keeps the numbering. -/
theorem Numbered.step {ctrl : Ctrl} {s : State n} {g : Ghost} (h : Numbered ctrl (s, g))
    (p : Probe n) :
    Numbered ctrl ((numbered n ctrl).step (s, g) p) := by
  have hdo := p.run_does ctrl s
  have hsub := submitted_run ctrl s p
  simp only [numbered]
  cases p with
  | connect family cur sk a =>
      simp only [Ghost.step]
      by_cases hst : (recorded ctrl cur && !a.updateFails) = true
      · rw [if_pos hst]
        have hrec : recorded ctrl cur = true := (Bool.and_eq_true_iff.mp hst).1
        refine h.store sk (fun k => ?_) (newSess_allowed hrec a) rfl
        by_cases hk : k = sk
        · rw [if_pos hk, hk]
          exact hdo.get_sk.trans (if_pos hst)
        · rw [if_neg hk]
          exact hdo.get_of_ne hk
      · rw [if_neg hst]
        refine h.shrink hdo fun sess' hsess' => ⟨sess', ?_, rfl, rfl⟩
        simpa only [Probe.session, if_neg hst] using hsess'
  | connectExit family sk sock ret =>
      refine h.shrink hdo fun sess' hsess' => ?_
      simp only [Probe.session] at hsess'
      split_ifs at hsess'
      obtain ⟨sess, hsess, rfl⟩ := Option.map_eq_some_iff.mp hsess'
      exact ⟨sess, hsess, by simp, by simp⟩
  | finishConnect sk x =>
      refine h.shrink hdo fun sess' hsess' => ?_
      obtain ⟨sess, hsess, rfl⟩ := Option.map_eq_some_iff.mp hsess'
      refine ⟨sess, hsess, ?_⟩
      simp only [settled]
      split_ifs <;> simp
  | retransmit sk x =>
      simp only [Ghost.step]
      cases hg : s.sessMap.get sk with
      | none =>
          rw [if_neg (by simp)]
          refine h.shrink hdo fun sess' hsess' => ?_
          simp [Probe.session, Probe.sk, hg] at hsess'
      | some sess =>
          rw [if_pos (by simp), hsub]
          have hall := (h.live sk sess hg).2.1
          refine h.hit hg (fun k => ?_) fun c hc => ?_
          · by_cases hk : k = sk
            · rw [if_pos hk, hk]
              apply hdo.get_sk.trans
              simp [Probe.session, Probe.sk, hg, hall]
            · rw [if_neg hk]
              exact hdo.get_of_ne hk
          · simp only [Probe.sk, Probe.event, hg, Option.bind_some] at hc
            split_ifs at hc with hres
            · rw [← Option.some.inj hc]
              simp only [retransmitEvent, fillSock, retransmitted]
              split_ifs <;> rfl
            · simp at hc
  | close sk x =>
      simp only [Ghost.step]
      cases hg : s.sessMap.get sk with
      | none =>
          rw [hsub]
          simp only [Probe.sk, hg, Probe.event, Option.bind_none, Option.toList_none, List.map_nil,
            List.append_nil]
          exact h.shrink hdo fun sess' hsess' => by cases hsess'
      | some sess =>
          have hdrop := h.drop hg (fun k => hdo.sess k)
            ((submitted s ((Probe.close sk x).run ctrl s)).map (·.retransCnt)) fun c hc => ?_
          · rw [List.map_map] at hdrop
            exact hdrop
          · rw [hsub] at hc
            simp only [Probe.sk, hg, Probe.event, Option.bind_some] at hc
            split_ifs at hc with hres
            · simpa [closeEvent, fillSavedSock, fillProcess] using hc
            · simp at hc
  | evict sk => exact h.shrink hdo fun sess' hsess' => by cases hsess'

/-! ## Runs -/

theorem bounded_and_numbered (ctrl : Ctrl) (ps : List (Probe n)) :
    Bounded ((numbered n ctrl).run ps).1 ∧ Numbered ctrl ((numbered n ctrl).run ps) := by
  induction ps using List.reverseRecOn with
  | nil =>
      refine ⟨⟨?_, ?_⟩, ?_⟩
      · simp [numbered, Machine.run, State.start, Stats.settledCount]
      · simp [numbered, Machine.run, State.start, BpfMap.size]
      · constructor <;> simp [numbered, Machine.run, State.start, Ghost.start]
  | append_singleton ps p ih =>
      rw [Machine.run_snoc]
      exact ⟨ih.1.step ctrl p, ih.2.step p⟩

theorem toNat_of_eq_ofNat {c : UInt32} {k : ℕ} (hc : c = UInt32.ofNat k) (hk : k < 2 ^ 32) :
    c.toNat = k := by
  rw [hc, UInt32.toNat_ofNat_of_lt' hk]

/-- At every point of every run, settled handshakes with the sessions still to be
settled, and closes with the live sessions, stay below the attempted connects.
A session found by fewer than 2^32 retransmit probes numbers their events
1, 2, 3, ... in order, and its CLOSE event carries how many there were. -/
theorem sessions_stay_within_attempted_connects (ctrl : Ctrl) (ps : List (Probe n)) :
    let s := ((numbered n ctrl).run ps).1
    let g := ((numbered n ctrl).run ps).2
    s.stats.total (·.hsCount) + s.stats.total (·.filteredLatency) +
        s.sessMap.weight (fun sess => if sess.handshakeReported then 0 else 1) ≤
        s.stats.total (·.connectAttempted) ∧
      s.stats.total (·.clCount) + s.sessMap.size ≤ s.stats.total (·.connectAttempted) ∧
      ∀ i, (g.hits i).length < 2 ^ 32 →
        (∀ (j : ℕ) c, (g.hits i)[j]? = some (some c) → c.toNat = j + 1) ∧
          ∀ c, (i, c) ∈ g.closes → c.toNat = (g.hits i).length := by
  intro s g
  obtain ⟨hb, hn⟩ := bounded_and_numbered ctrl ps
  refine ⟨?_, hb.closed, fun i hi => ⟨fun j c hc => ?_, fun c hc => ?_⟩⟩
  · have hset := hb.settled
    simp only [Stats.settledCount, PerCpu.total_add] at hset
    exact hset
  · have hj : j < (g.hits i).length := (List.getElem?_eq_some_iff.mp hc).1
    exact toNat_of_eq_ofNat (hn.counts i j c hc) (by omega)
  · exact toNat_of_eq_ofNat (hn.closed i c hc).2.1 hi

/-- A connect, two retransmits of which one is dropped, a close: the CLOSE event says 2. -/
theorem close_reports_two_retransmits :
    let sock : Sock := ⟨2, 40000, 80, 1, 2, Vector.replicate _ 0, Vector.replicate _ 0, 1⟩
    let task : Task := ⟨packPidTgid 7 7, fun _ _ => none⟩
    let ps : List (Probe 2) :=
      [.connect .v4 task 64 ⟨0, 10, Vector.replicate _ 0, false⟩, .connectExit .v4 64 sock 0,
        .retransmit 64 ⟨1, 20, sock, false⟩, .retransmit 64 ⟨0, 30, sock, true⟩,
        .close 64 ⟨1, 40, sock, true⟩]
    let g := ((numbered 2 ⟨true, 0, 0, 0, 0⟩).run ps).2
    g.hits 0 = [none, some 2] ∧ g.closes = [(0, 2)] ∧
      ∀ c, (0, c) ∈ g.closes → c.toNat = (g.hits 0).length := by
  intro sock task ps g
  have hhits : g.hits 0 = [none, some 2] := by decide +kernel
  refine ⟨hhits, by decide +kernel, ?_⟩
  exact ((sessions_stay_within_attempted_connects ⟨true, 0, 0, 0, 0⟩ ps).2.2 0
    (by show (g.hits 0).length < 2 ^ 32; rw [hhits]; decide)).2

end EbpfToolbox.Net.TcpMonitor
