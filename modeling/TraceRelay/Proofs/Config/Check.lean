import TraceRelay.Config.Check

/-!
# The rules of a configuration

What is asked of a configuration is a list of rules, in the order of its sections; those of a tracer that
is not enabled are not in it. A check goes through them (`check_eq`): it refuses a configuration for the
first rule that is broken (`check_eq_error`), and accepts it if none is, which is to say that the
configuration is `Sound` (`check_eq_ok`).
-/

namespace TraceRelay.Config

/-- What a configuration has to keep to, and its failure if it does not. -/
structure Rule where
  holds : Bool
  failure : Failure

/-! ## Rules in a row -/

/-- The failure of the first rule that is broken. -/
def follow : List Rule → Except Failure Unit
  | [] => .ok ()
  | r :: rest => if r.holds then follow rest else .error r.failure

/-- A rule is broken, and those before it are not. -/
def FirstBroken (rules : List Rule) (f : Failure) : Prop :=
  ∃ before r after, rules = before ++ r :: after ∧ (∀ q ∈ before, q.holds = true) ∧ r.holds = false ∧
    r.failure = f

theorem follow_append (rs qs : List Rule) : follow (rs ++ qs) = (do follow rs; follow qs) := by
  induction rs with
  | nil => rfl
  | cons r rs ih =>
    rw [List.cons_append, follow, follow, ih]
    split <;> rfl

theorem follow_eq_ok {rules : List Rule} : follow rules = .ok () ↔ ∀ r ∈ rules, r.holds = true := by
  induction rules with
  | nil => simp [follow]
  | cons r rest ih => by_cases h : r.holds = true <;> simp [follow, h, ih]

theorem follow_eq_error {rules : List Rule} {f : Failure} :
    follow rules = .error f ↔ FirstBroken rules f := by
  induction rules with
  | nil => simp [follow, FirstBroken]
  | cons r rest ih =>
    unfold follow
    by_cases h : r.holds = true
    · rw [if_pos h, ih]
      constructor
      · rintro ⟨before, q, after, rfl, hbefore, hbroken⟩
        exact ⟨r :: before, q, after, rfl, List.forall_mem_cons.mpr ⟨h, hbefore⟩, hbroken⟩
      · rintro ⟨before, q, after, hrules, hbefore, hbroken, hfailure⟩
        cases before with
        | nil =>
          cases hrules
          rw [h] at hbroken
          cases hbroken
        | cons _ before =>
          cases hrules
          exact ⟨before, q, after, rfl, (List.forall_mem_cons.mp hbefore).2, hbroken, hfailure⟩
    · rw [if_neg h]
      constructor
      · intro hf
        cases hf
        exact ⟨[], r, rest, rfl, List.forall_mem_nil _, Bool.eq_false_iff.mpr h, rfl⟩
      · rintro ⟨before, q, after, hrules, hbefore, hbroken, rfl⟩
        cases before with
        | nil => cases hrules; rfl
        | cons _ before =>
          cases hrules
          exact absurd (List.forall_mem_cons.mp hbefore).1 h

/-! ## The rules -/

/-- A file tracer has a path. -/
def FileTracer.rules (name : String) (t : FileTracer) : List Rule :=
  [⟨t.path ≠ "", .missingField "tracer" name "path"⟩]

/-- A remote tracer has a peer with addresses, none of them blank, a level from 0 to 9, and some time for
an attempt. -/
def RemoteTracer.rules (t : RemoteTracer) : List Rule :=
  let invalid (field message : String) : Failure := .invalidValue "tracer" "remote" field message
  [⟨t.peer ≠ "", .missingField "tracer" "remote" "peer_id"⟩,
    ⟨t.addresses ≠ [], .missingField "tracer" "remote" "addrs"⟩] ++
  t.addresses.map (fun a => ⟨!Text.isBlankText a, invalid "addrs" s!"empty address '{a}'"⟩) ++
  [⟨t.compressionLevel ≤ 9,
      invalid "compression_level" s!"{t.compressionLevel} is not between 0 and 9"⟩,
    ⟨t.attemptTimeout.nanoseconds ≠ 0, invalid "attempt_timeout" "must be greater than zero"⟩]

/-- A collector listens on an address, and takes frames of some size. -/
def Collector.rules (c : Collector) : List Rule :=
  let invalid (field message : String) : Failure :=
    .invalidValue "collector" "collector" field message
  [⟨(Address.parse? c.listen).isSome, invalid "listen" "invalid socket address syntax"⟩,
    ⟨c.maxFrameSize ≠ 0, invalid "max_frame_size" "must be greater than zero"⟩]

/-- The tracers that are enabled. -/
def Tracers.active (t : Tracers) : Tracers :=
  ⟨t.json?.filter (·.enabled), t.protobuf?.filter (·.enabled), t.remote?.filter (·.enabled)⟩

def Tracers.rules (t : Tracers) : List Rule :=
  t.active.json?.toList.flatMap (·.rules "json") ++
    t.active.protobuf?.toList.flatMap (·.rules "protobuf") ++
    t.active.remote?.toList.flatMap (·.rules)

/-- All that is asked of a configuration, in the order in which it is checked. -/
def rules (c : Config) : List Rule := c.tracers.rules ++ c.collector.rules

/-! ## The check -/

theorem FileTracer.check_eq (name : String) (t : FileTracer) :
    t.check name = if t.enabled = true then follow (t.rules name) else .ok () := by
  by_cases henabled : t.enabled = true <;> by_cases hpath : t.path = "" <;>
    simp [check, rules, follow, henabled, hpath]

/-- The first of some addresses that is blank is reported. -/
theorem follow_addresses (failure : String → Failure) (addresses : List String) :
    follow (addresses.map fun a => ⟨!Text.isBlankText a, failure a⟩) =
      match addresses.find? Text.isBlankText with
      | some a => .error (failure a)
      | none => .ok () := by
  induction addresses with
  | nil => rfl
  | cons a rest ih =>
    rw [List.map_cons, follow, List.find?_cons]
    cases h : Text.isBlankText a with
    | true => rfl
    | false => exact ih

theorem RemoteTracer.check_eq (t : RemoteTracer) :
    t.check = if t.enabled = true then follow t.rules else .ok () := by
  unfold check rules
  by_cases henabled : t.enabled = true
  · rw [henabled, if_pos rfl, follow_append, follow_append, follow_addresses]
    by_cases hpeer : t.peer = ""
    · simp [follow, hpeer, bind, Except.bind]
    by_cases haddresses : t.addresses = []
    · simp [follow, hpeer, haddresses, bind, Except.bind]
    cases hblank : t.addresses.find? Text.isBlankText with
    | some a => simp [follow, hpeer, haddresses, bind, Except.bind]
    | none =>
      by_cases hlevel : t.compressionLevel ≤ 9 <;> by_cases htimeout : t.attemptTimeout.nanoseconds = 0 <;>
        simp [follow, hpeer, haddresses, hlevel, htimeout, bind, Except.bind, maxCompressionLevel,
          Duration.isZero]
  · simp [henabled]

theorem Collector.check_eq (c : Collector) : c.check = follow c.rules := by
  cases hlisten : Address.parse? c.listen <;> by_cases hsize : c.maxFrameSize = 0 <;>
    simp [check, rules, follow, hlisten, hsize]

/-- A section that is there and enabled is checked before what comes next. -/
theorem follow_section {α : Type} {enabled : α → Bool} {check : α → Except Failure Unit}
    {rules : α → List Rule} {next : Except Failure Unit} {rest : List Rule} (section? : Option α)
    (check_eq : ∀ t, check t = if enabled t = true then follow (rules t) else .ok ())
    (next_eq : next = follow rest) :
    (do if let some t := section? then check t
        next) = follow ((section?.filter enabled).toList.flatMap rules ++ rest) := by
  cases section? with
  | none => exact next_eq
  | some t =>
    rw [follow_append, Option.filter_some]
    dsimp only
    rw [check_eq, next_eq]
    split
    · simp
    · rfl

/-- **A check goes through the rules in their order.** -/
theorem check_eq (c : Config) : c.check = follow c.rules := by
  obtain ⟨log, ⟨json?, protobuf?, remote?⟩, collector⟩ := c
  have hsections := follow_section json? (FileTracer.check_eq "json")
    (follow_section protobuf? (FileTracer.check_eq "protobuf")
      (follow_section remote? RemoteTracer.check_eq collector.check_eq))
  unfold rules Tracers.rules Tracers.active
  rw [List.append_assoc, List.append_assoc]
  -- each section is there or not, and then both sides are the same steps
  cases json? <;> cases protobuf? <;> cases remote? <;> exact hsections

theorem check_eq_error {c : Config} {f : Failure} : c.check = .error f ↔ FirstBroken c.rules f := by
  rw [check_eq, follow_eq_error]

/-! ## Sound configurations -/

/-- What a remote tracer has to have. -/
structure RemoteTracer.Sound (t : RemoteTracer) : Prop where
  peer : t.peer ≠ ""
  addresses : t.addresses ≠ []
  not_blank : ∀ a ∈ t.addresses, ∃ ch ∈ a.toList, Text.isBlank ch = false
  compressionLevel : t.compressionLevel ≤ 9
  attemptTimeout : t.attemptTimeout ≠ ⟨0⟩

/-- What a configuration has to have. Of tracers that are not enabled nothing is asked. -/
structure Sound (c : Config) : Prop where
  json : ∀ t, c.tracers.json? = some t → t.enabled = true → t.path ≠ ""
  protobuf : ∀ t, c.tracers.protobuf? = some t → t.enabled = true → t.path ≠ ""
  remote : ∀ t, c.tracers.remote? = some t → t.enabled = true → t.Sound
  listen : ∃ a, Address.parse? c.collector.listen = some a
  maxFrameSize : c.collector.maxFrameSize ≠ 0

theorem FileTracer.rules_hold {name : String} {t : FileTracer} :
    (∀ r ∈ t.rules name, r.holds = true) ↔ t.path ≠ "" := by
  simp [rules]

theorem RemoteTracer.rules_hold {t : RemoteTracer} : (∀ r ∈ t.rules, r.holds = true) ↔ t.Sound := by
  have hblank : ∀ a : String, (!Text.isBlankText a) = true ↔ ∃ ch ∈ a.toList, Text.isBlank ch = false := by
    intro a
    simp [Text.isBlankText]
  have htimeout : t.attemptTimeout = ⟨0⟩ ↔ t.attemptTimeout.nanoseconds = 0 := by
    rw [← Duration.mk.injEq]
  constructor
  · intro h
    simp only [rules, List.forall_mem_append, List.forall_mem_map, hblank, List.forall_mem_cons,
      decide_eq_true_eq] at h
    obtain ⟨⟨⟨hpeer, haddresses, -⟩, hnot_blank⟩, hlevel, hpositive, -⟩ := h
    exact ⟨hpeer, haddresses, hnot_blank, hlevel, fun hzero => hpositive (htimeout.mp hzero)⟩
  · intro h
    simp only [rules, List.forall_mem_append, List.forall_mem_map, hblank, List.forall_mem_cons,
      decide_eq_true_eq]
    exact ⟨⟨⟨h.peer, h.addresses, nofun⟩, h.not_blank⟩, h.compressionLevel,
      fun hzero => h.attemptTimeout (htimeout.mpr hzero), nofun⟩

theorem Collector.rules_hold {c : Collector} : (∀ r ∈ c.rules, r.holds = true) ↔
    (∃ a, Address.parse? c.listen = some a) ∧ c.maxFrameSize ≠ 0 := by
  simp [rules, Option.isSome_iff_exists]

/-- The rules of a section hold if it is not there, not enabled, or keeps to them. -/
theorem section_hold {α : Type} {section? : Option α} {enabled : α → Bool} {rules : α → List Rule}
    {Good : α → Prop} (hold : ∀ t, (∀ r ∈ rules t, r.holds = true) ↔ Good t) :
    (∀ r ∈ (section?.filter enabled).toList.flatMap rules, r.holds = true) ↔
      ∀ t, section? = some t → enabled t = true → Good t := by
  constructor
  · intro h t hsome henabled
    rw [← hold]
    intro r hr
    apply h
    rw [hsome, Option.filter_some, if_pos henabled]
    simpa using hr
  · intro h r hr
    obtain ⟨t, ht, hr⟩ := List.mem_flatMap.mp hr
    rw [Option.mem_toList, Option.filter_eq_some_iff] at ht
    exact (hold t).mpr (h t ht.1 ht.2) r hr

/-- **A configuration is accepted if it is sound, and only then.** -/
theorem check_eq_ok {c : Config} : c.check = .ok () ↔ Sound c := by
  rw [check_eq, follow_eq_ok, rules, Tracers.rules, Tracers.active, List.forall_mem_append,
    List.forall_mem_append, List.forall_mem_append, section_hold fun _ => FileTracer.rules_hold,
    section_hold fun _ => FileTracer.rules_hold, section_hold fun _ => RemoteTracer.rules_hold,
    Collector.rules_hold]
  constructor
  · rintro ⟨⟨⟨hjson, hprotobuf⟩, hremote⟩, hlisten, hsize⟩
    exact ⟨hjson, hprotobuf, hremote, hlisten, hsize⟩
  · intro h
    exact ⟨⟨⟨h.json, h.protobuf⟩, h.remote⟩, h.listen, h.maxFrameSize⟩

/-- **Nothing of a tracer that is not enabled is looked at.** -/
theorem check_congr {c c' : Config} (active : c'.tracers.active = c.tracers.active)
    (collector : c'.collector = c.collector) : c'.check = c.check := by
  rw [check_eq, check_eq, rules, rules, Tracers.rules, Tracers.rules, active, collector]

end TraceRelay.Config
