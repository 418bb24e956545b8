import MechLidar.Frames

/-!
# MechLidar.Passes

Which frames a pass over the file hands to `pkt_hdl_Mech`.

* `InPass file later d`: the first pass is over the file without its first frame, which the
  constructor has taken, and each later pass is over `later`.
* `single_inPass`, `full_inPass`: every state that the polls reach. A SINGLE poll takes the first
  frame at the end of the file as well, so that its passes are all over the tail of the file.
* `replays_iff`: which passes replay the whole file.
-/

namespace MechLidar

open Lib

variable {F : Type}

/-- The buffer of a frame with a payload of 936 bytes. -/
def Frame.raw (f : Frame) : Option RawPacket := f.rawPdu.bind rawPacket

def rawsOf (frames : List Frame) : List RawPacket := frames.filterMap Frame.raw

structure InPass (file later : List Frame) (d : PcapDriver F) : Prop where
  pcapFile : d.pcapFile = file
  passes :
    (d.passes.done = [] ∧ d.passes.current ++ rawsOf d.pcapSniffer = rawsOf file.tail) ∨
    ∃ n, d.passes.done = rawsOf file.tail :: List.replicate n (rawsOf later) ∧
      d.passes.current ++ rawsOf d.pcapSniffer = rawsOf later

section InPass

variable {file later : List Frame} {d d' : PcapDriver F}

theorem InPass.done (h : InPass file later d) {k : Nat} {pass : List RawPacket}
    (hk : d.passes.done[k]? = some pass) :
    pass = if k = 0 then rawsOf file.tail else rawsOf later := by
  rcases h.passes with ⟨hdone, -⟩ | ⟨n, hdone, -⟩
  · rw [hdone] at hk
    cases hk
  · rw [hdone] at hk
    cases k with
    | zero =>
      cases hk
      rfl
    | succ k =>
      rw [if_neg (Nat.succ_ne_zero k)]
      rw [List.getElem?_cons_succ] at hk
      exact List.eq_of_mem_replicate (List.mem_of_getElem? hk)

theorem InPass.read (h : InPass file later d) {f : Frame} {rest : List Frame}
    {payload : List UInt8} (hs : d.pcapSniffer = f :: rest) (hf : f.rawPdu = some payload)
    (hfile : d'.pcapFile = d.pcapFile) (hs' : d'.pcapSniffer = rest)
    (hp : d'.passes = ⟨d.passes.done, d.passes.current ++ (rawPacket payload).toList⟩) :
    InPass file later d' := by
  have hraws : d'.passes.current ++ rawsOf d'.pcapSniffer =
      d.passes.current ++ rawsOf d.pcapSniffer := by
    have hf' : f.raw = rawPacket payload := by rw [Frame.raw, hf, Option.bind_some]
    rw [hs, hs', hp, List.append_assoc, rawsOf, rawsOf, List.filterMap_cons, hf']
    cases rawPacket payload with
    | none => rfl
    | some raw => rfl
  have hdone : d'.passes.done = d.passes.done := by rw [hp]
  refine ⟨hfile.trans h.pcapFile, ?_⟩
  rw [hraws, hdone]
  exact h.passes

theorem InPass.again (h : InPass file later d) (hs : d.pcapSniffer = [])
    (hfile : d'.pcapFile = d.pcapFile) (hs' : rawsOf d'.pcapSniffer = rawsOf later)
    (hp : d'.passes = ⟨d.passes.done ++ [d.passes.current], []⟩) : InPass file later d' := by
  have hnew : d'.passes.current ++ rawsOf d'.pcapSniffer = rawsOf later := by
    rw [hp, hs']
    rfl
  refine ⟨hfile.trans h.pcapFile, .inr ?_⟩
  rcases h.passes with ⟨hdone, hcur⟩ | ⟨n, hdone, hcur⟩
  · rw [hs, rawsOf, List.filterMap_nil, List.append_nil] at hcur
    exact ⟨0, by rw [hp, hdone, hcur]; rfl, hnew⟩
  · rw [hs, rawsOf, List.filterMap_nil, List.append_nil] at hcur
    refine ⟨n + 1, ?_, hnew⟩
    rw [hp, hdone, hcur, List.cons_append, List.replicate_succ']

theorem inPass_initial (options : DriverRuntimeOptions F) (file later : List Frame) :
    InPass file later (PcapDriver.initial options file) := ⟨rfl, .inl ⟨rfl, rfl⟩⟩

theorem passes_restart (d : PcapDriver F) :
    d.restart.passes = ⟨d.passes.done ++ [d.passes.current], []⟩ :=
  passes_log d.toDriver .startOver

end InPass

variable [Arith F]

theorem single_inPass (options : DriverRuntimeOptions F) {file : List Frame} {d : PcapDriver F}
    (h : Steps pollPcap (PcapDriver.initial options file) d) : InPass file file.tail d := by
  refine Steps.preserves (fun t t' ht hstep => ?_) h (inPass_initial options file file.tail)
  rcases pollPcap_cases hstep with ⟨hs, rfl⟩ | ⟨f, rest, payload, hs, hf, rfl⟩
  · exact ht.again hs rfl (congrArg (fun l => rawsOf l.tail) ht.pcapFile) (passes_restart t)
  · exact ht.read hs hf rfl rfl (passes_advance t f rest payload)

theorem full_inPass (options : DriverRuntimeOptions F) {file : List Frame} {ok : Stream' Bool}
    {s : FullReplay F} (h : Steps fullReplay (FullReplay.start options file ok) s) :
    InPass file file s.driver := by
  refine Steps.preserves (P := fun t => InPass file file t.driver) (fun t t' ht hstep => ?_) h
    (inPass_initial options file file)
  rcases fullReplay_cases hstep with ⟨-, rfl⟩ | ⟨-, hs, rfl⟩ | ⟨-, f, rest, payload, hs, hf, rfl⟩
  · refine ⟨ht.pcapFile, ?_⟩
    rw [FullReplay.passes_finish]
    exact ht.passes
  · exact ht.again hs rfl (congrArg rawsOf ht.pcapFile) (FullReplay.passes_startOver t)
  · exact ht.read hs hf rfl rfl (FullReplay.passes_read t f rest payload)

/-! ## Every pass ends -/

theorem single_ends {file : List Frame} (hfile : ∀ f ∈ file, f.rawPdu ≠ none) {d : PcapDriver F}
    (hd : d.pcapFile = file) (hs : d.pcapSniffer <:+ file) :
    ∃ d', Steps pollPcap d d' ∧ d'.pcapFile = file ∧ d'.pcapSniffer <:+ file ∧
      d'.passes.done.length = d.passes.done.length + 1 := by
  obtain ⟨d₁, hsteps, hsniff, hfile₁, hdone⟩ := single_reads d.pcapSniffer []
    (List.append_nil _).symm fun f hf => hfile f (hs.subset hf)
  refine ⟨d₁.restart, hsteps.trans (.single (pollPcap_restart hsniff)), hfile₁.trans hd, ?_, ?_⟩
  · show d₁.pcapFile.tail <:+ file
    rw [hfile₁, hd]
    exact List.tail_suffix file
  · rw [passes_restart, hdone, List.length_append]
    rfl

theorem full_ends {file : List Frame} (hfile : ∀ f ∈ file, f.rawPdu ≠ none) {s : FullReplay F}
    (hread : s.Reading) (hd : s.driver.pcapFile = file) (hs : s.driver.pcapSniffer <:+ file) :
    ∃ s', Steps fullReplay s s' ∧ s'.Reading ∧ s'.driver.pcapFile = file ∧
      s'.driver.pcapSniffer = file ∧
      s'.driver.passes.done.length = s.driver.passes.done.length + 1 := by
  obtain ⟨s₁, hsteps, hread₁, hsniff, hfile₁, hdone⟩ :=
    reads s.driver.pcapSniffer [] hread (List.append_nil _).symm
      fun f hf => hfile f (hs.subset hf)
  refine ⟨s₁.startOver, hsteps.trans (.single (fullReplay_startOver hread₁.runs hsniff)),
    hread₁.startOver, hfile₁.trans hd, hfile₁.trans hd, ?_⟩
  rw [FullReplay.passes_startOver, hdone, List.length_append]
  rfl

/-! ## Whole passes -/

/-- Pass `k` of every run of SINGLE polls hands over the frames of the file. -/
def ReplaysSingle (options : DriverRuntimeOptions F) (file : List Frame) (k : Nat) : Prop :=
  ∀ d, Steps pollPcap (PcapDriver.initial options file) d →
    ∀ pass, d.passes.done[k]? = some pass → pass = rawsOf file

def ReplaysFull (options : DriverRuntimeOptions F) (file : List Frame) (k : Nat) : Prop :=
  ∀ ok s, Steps fullReplay (FullReplay.start options file ok) s →
    ∀ pass, s.driver.passes.done[k]? = some pass → pass = rawsOf file

theorem single_pass_ends (options : DriverRuntimeOptions F) {file : List Frame}
    (hfile : ∀ f ∈ file, f.rawPdu ≠ none) (k : Nat) :
    ∃ d, Steps pollPcap (PcapDriver.initial options file) d ∧ d.pcapFile = file ∧
      d.pcapSniffer <:+ file ∧ d.passes.done.length = k := by
  induction k with
  | zero => exact ⟨_, .refl, rfl, List.tail_suffix file, rfl⟩
  | succ k ih =>
    obtain ⟨d, hsteps, hd, hs, hlen⟩ := ih
    obtain ⟨d', hsteps', hd', hs', hlen'⟩ := single_ends hfile hd hs
    exact ⟨d', hsteps.trans hsteps', hd', hs', hlen'.trans (by rw [hlen])⟩

theorem full_pass_ends (options : DriverRuntimeOptions F) {file : List Frame}
    (hfile : ∀ f ∈ file, f.rawPdu ≠ none) (k : Nat) :
    ∃ s, Steps fullReplay (FullReplay.start options file (Stream'.const true)) s ∧ s.Reading ∧
      s.driver.pcapFile = file ∧ s.driver.pcapSniffer <:+ file ∧
      s.driver.passes.done.length = k := by
  induction k with
  | zero => exact ⟨_, .refl, reading_start options file, rfl, List.tail_suffix file, rfl⟩
  | succ k ih =>
    obtain ⟨s, hsteps, hread, hd, hs, hlen⟩ := ih
    obtain ⟨s', hsteps', hread', hd', hs', hlen'⟩ := full_ends hfile hread hd hs
    exact ⟨s', hsteps.trans hsteps', hread', hd', hs' ▸ List.suffix_rfl,
      hlen'.trans (by rw [hlen])⟩

/-- The pass without the first frame is the whole pass of an empty file only. -/
theorem rawsOf_tail_iff {file : List Frame} (hfile : ∀ f ∈ file, f.raw ≠ none) :
    rawsOf file.tail = rawsOf file ↔ file = [] := by
  constructor
  · intro h
    cases file with
    | nil => rfl
    | cons f rest =>
      obtain ⟨raw, hraw⟩ := Option.ne_none_iff_exists'.mp (hfile f List.mem_cons_self)
      have hlen := congrArg List.length h
      rw [List.tail_cons, rawsOf, rawsOf, List.filterMap_cons, hraw, List.length_cons] at hlen
      omega
  · rintro rfl
    rfl

/-- A capture of frames with payloads of 936 bytes, as valid packets have: SINGLE polls hand over
the whole file in no pass, and FULL polls in every pass but the first. -/
theorem replays_iff (options : DriverRuntimeOptions F) {file : List Frame}
    (hfile : ∀ f ∈ file, f.raw ≠ none) (k : Nat) :
    (ReplaysSingle options file k ↔ file = []) ∧
      (ReplaysFull options file k ↔ file = [] ∨ 0 < k) := by
  have hpayload : ∀ f ∈ file, f.rawPdu ≠ none := by
    intro f hf hnone
    exact hfile f hf (by rw [Frame.raw, hnone, Option.bind_none])
  have htail := rawsOf_tail_iff hfile
  have hget : ∀ {done : List (List RawPacket)}, done.length = k + 1 →
      ∃ pass, done[k]? = some pass := fun hlen => ⟨_, List.getElem?_eq_getElem (by omega)⟩
  refine ⟨⟨fun h => ?_, fun h d hsteps pass hk => ?_⟩,
    ⟨fun h => ?_, fun h ok s hsteps pass hk => ?_⟩⟩
  · obtain ⟨d, hsteps, -, -, hlen⟩ := single_pass_ends options hpayload (k + 1)
    obtain ⟨pass, hk⟩ := hget hlen
    have hpass := (single_inPass options hsteps).done hk
    rw [ite_self, h d hsteps pass hk] at hpass
    exact htail.mp hpass.symm
  · rw [(single_inPass options hsteps).done hk, ite_self]
    exact htail.mpr h
  · obtain ⟨s, hsteps, -, -, -, hlen⟩ := full_pass_ends options hpayload (k + 1)
    obtain ⟨pass, hk⟩ := hget hlen
    have hpass := (full_inPass options hsteps).done hk
    rw [h _ s hsteps pass hk] at hpass
    by_cases hzero : k = 0
    · rw [if_pos hzero] at hpass
      exact .inl (htail.mp hpass.symm)
    · exact .inr (Nat.pos_of_ne_zero hzero)
  · rw [(full_inPass options hsteps).done hk]
    split
    · rename_i hzero
      rcases h with h | h
      · exact htail.mpr h
      · omega
    · rfl

theorem raw_frameOf (raw : RawPacket) : (frameOf raw).raw = some raw := rawPacket_toList raw

/-- A capture of one frame, which SINGLE polls never hand over, and FULL polls not in the first
pass. -/
theorem first_frame_lost :
    rawsOf [frameOf (plainRaw 0 0)] = [plainRaw 0 0] ∧
      (∃ d, Steps pollPcap (PcapDriver.initial (plainOptions : DriverRuntimeOptions ℝ)
        [frameOf (plainRaw 0 0)]) d ∧ d.passes.done = [[], []]) ∧
      ∃ s, Steps fullReplay (FullReplay.start (plainOptions : DriverRuntimeOptions ℝ)
        [frameOf (plainRaw 0 0)] (Stream'.const true)) s ∧ s.driver.passes.done = [[]] := by
  refine ⟨?_, ⟨_, .cons (pollPcap_restart rfl) (.single (pollPcap_restart rfl)), ?_⟩,
    ⟨_, .single (fullReplay_startOver (reading_start _ _).runs rfl), ?_⟩⟩
  · rw [rawsOf, List.filterMap_cons, raw_frameOf]
    rfl
  · rw [passes_restart, passes_restart]
    rfl
  · rw [FullReplay.passes_startOver]
    rfl

theorem replays_iff_frame :
    (ReplaysSingle (plainOptions : DriverRuntimeOptions ℝ) [frameOf (plainRaw 0 0)] 1 ↔
        [frameOf (plainRaw 0 0)] = []) ∧
      (ReplaysFull (plainOptions : DriverRuntimeOptions ℝ) [frameOf (plainRaw 0 0)] 1 ↔
        [frameOf (plainRaw 0 0)] = [] ∨ 0 < 1) := by
  refine replays_iff plainOptions (fun f hf => ?_) 1
  rw [List.mem_singleton.mp hf, raw_frameOf]
  exact Option.some_ne_none _

end MechLidar
