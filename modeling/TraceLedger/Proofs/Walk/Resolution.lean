import TraceLedger.Proofs.Resolver.Failures
import TraceLedger.Proofs.Walk.Creations
import TraceLedger.Proofs.Walk.Independence
import TraceLedger.Proofs.Walk.Reach

/-! # The addresses that a walk resolves

A walk resolves the two addresses of every call above the depth limit that it comes to, before it
knows whether the call can be decoded. What it files is what was told of these addresses, and the
actors that calls created. -/

namespace TraceLedger

/-- The two addresses of the call of a stop. -/
def Stop.parties (stop : Stop) : List Address :=
  [stop.trace.message.sender, stop.trace.message.receiver]

namespace Walker

open Visit AddressInfo

/-- A call that a walk comes to is visited if it is above the depth limit. -/
def Visits (w : Walker) (stop : Stop) : Prop := stop.frame.level.toUInt64 < w.config.maxDepth

instance (w : Walker) (stop : Stop) : Decidable (w.Visits stop) :=
  inferInstanceAs (Decidable (_ < _))

/-- What the node tells of an address. -/
def told (w : Walker) (scope : Scope) (address : Address) : AddressInfo :=
  (w.resolver.lookup address scope.tipset.key).info

/-- The addresses that are resolved at a stop. -/
def askedAt (w : Walker) (stop : Stop) : List Address :=
  if w.Visits stop ∧ w.config.resolveAddresses = true then stop.parties else []

/-- What is filed at a stop. -/
def filedAt (w : Walker) (scope : Scope) (stop : Stop) : List AddressInfo :=
  (w.askedAt stop).map (w.told scope) ++ stop.created?.toList

/-- A state of a walk after addresses were resolved and records were filed. -/
structure Learns (w : Walker) (scope : Scope) (s : WalkState) (asked : List Address)
    (infos : List AddressInfo) (t : WalkState) : Prop where
  soundAt : w.config.resolveAddresses = true → w.resolver.SoundAt scope.tipset.key t.resolver
  addresses : t.addresses = infos.foldl AddressBook.add s.addresses
  failures : t.failures =
    s.failures ++ (w.resolver.resolveAll scope.tipset.key asked s.resolver).1
  resolver : t.resolver = (w.resolver.resolveAll scope.tipset.key asked s.resolver).2

theorem Learns.refl {w : Walker} {scope : Scope} {s : WalkState}
    (hs : w.config.resolveAddresses = true → w.resolver.SoundAt scope.tipset.key s.resolver) :
    w.Learns scope s [] [] s :=
  ⟨hs, rfl, (List.append_nil _).symm, rfl⟩

theorem Learns.trans {w : Walker} {scope : Scope} {s t u : WalkState}
    {first second : List Address} {infos others : List AddressInfo}
    (h : w.Learns scope s first infos t) (h' : w.Learns scope t second others u) :
    w.Learns scope s (first ++ second) (infos ++ others) u where
  soundAt := h'.soundAt
  addresses := by rw [h'.addresses, h.addresses, List.foldl_append]
  failures := by
    rw [h'.failures, h.failures, h.resolver, Resolver.resolveAll_append, List.append_assoc]
  resolver := by rw [h'.resolver, h.resolver, Resolver.resolveAll_append]

/-! ## One visit -/

theorem learns_recordAddress (w : Walker) (scope : Scope) (address : Address) {s : WalkState}
    (hs : w.resolver.SoundAt scope.tipset.key s.resolver) :
    w.Learns scope s [address] [w.told scope address] (w.recordAddress scope address s).2 := by
  have hinfo := hs.info_resolve address
  have hfiled := w.resolver.short_ne_or_robust_ne address scope.tipset.key
  refine ⟨fun _ => hs.resolve address, ?_, ?_, rfl⟩
  · simp only [recordAddress, hinfo, String.isEmpty_iff, Decidable.not_and_iff_or_not.mpr hfiled,
      if_false]
    rfl
  · simp [recordAddress, Resolver.resolveAll]

theorem learns_recordParties (w : Walker) (scope : Scope) (message : Trace.Message)
    {s : WalkState}
    (hs : w.config.resolveAddresses = true → w.resolver.SoundAt scope.tipset.key s.resolver) :
    let asked := if w.config.resolveAddresses then [message.sender, message.receiver] else []
    w.Learns scope s asked (asked.map (w.told scope)) (w.recordParties scope message s).2 := by
  intro asked
  unfold recordParties
  by_cases hresolve : w.config.resolveAddresses = true
  · have hsender := w.learns_recordAddress scope message.sender (hs hresolve)
    have hreceiver := w.learns_recordAddress scope message.receiver (hsender.soundAt hresolve)
    simp only [asked, if_pos hresolve]
    exact hsender.trans hreceiver
  · simp only [asked, if_neg hresolve]
    exact Learns.refl hs

/-- A visit resolves the addresses of its call, and files what was told of them and the actor that
the call created. -/
theorem learns_of_visit {w : Walker} {scope : Scope} {site : Site} {s t : WalkState}
    (hs : w.config.resolveAddresses = true → w.resolver.SoundAt scope.tipset.key s.resolver)
    {record? : Option Emitted}
    (h : w.visit scope site.frame s = (record?, t)) :
    let stop := w.stopAt scope site s
    w.Learns scope s (w.askedAt stop) (w.filedAt scope stop) t := by
  intro stop
  have hparties := w.learns_recordParties scope site.frame.trace.message hs
  have hrecord : stop.record? = record? := record?_stopAt h
  have hcreated : stop.created? = record?.bind (·.decoded.created) := by
    rw [Stop.created?, hrecord]
  unfold visit at h
  split at h
  next hdeep =>
    cases h
    have hasked : w.askedAt stop = [] :=
      if_neg fun hvisits => UInt64.not_lt.mpr hdeep hvisits.1
    rw [filedAt, hasked, hcreated]
    exact ⟨hs, rfl, (List.append_nil _).symm, rfl⟩
  next hdeep =>
    have hvisits : w.Visits stop := UInt64.not_le.mp hdeep
    have hasked : w.askedAt stop =
        if w.config.resolveAddresses then
          [site.frame.trace.message.sender, site.frame.trace.message.receiver] else [] := by
      simp only [askedAt, hvisits, true_and]
      rfl
    rw [filedAt, hasked, hcreated]
    simp only at h
    split at h
    next =>
      cases h
      rw [Option.bind_none, Option.toList_none, List.append_nil]
      exact ⟨hparties.soundAt, hparties.addresses, hparties.failures, hparties.resolver⟩
    next emitted hemit =>
      cases h
      refine ⟨hparties.soundAt, ?_, hparties.failures, hparties.resolver⟩
      rw [fileCreated_eq, hparties.addresses, List.foldl_append]
      rfl

theorem Learns.addRecord {w : Walker} {scope : Scope} {s t : WalkState} {asked : List Address}
    {infos : List AddressInfo} (h : w.Learns scope s asked infos t) (frame : Frame)
    (emitted : Emitted) : w.Learns scope s asked infos (addRecord frame emitted t) :=
  ⟨h.soundAt, h.addresses, h.failures, h.resolver⟩

/-- What visits resolve and file, by induction over the calls that lie before the walk. -/
theorem learns_visitAll (w : Walker) (scope : Scope) {s : WalkState} (sites : List Site)
    (hs : w.config.resolveAddresses = true → w.resolver.SoundAt scope.tipset.key s.resolver) :
    w.Learns scope s ((w.journey scope s sites).flatMap w.askedAt)
      ((w.journey scope s sites).flatMap (w.filedAt scope))
      (w.visitAll scope s (sites.map Site.frame)) := by
  induction s, sites using journey.induct with
  | case1 s =>
      rw [journey, List.map_nil, visitAll]
      exact Learns.refl hs
  | case2 s site rest ihskip ihgo =>
      rw [journey, List.map_cons, visitAll, List.flatMap_cons, List.flatMap_cons]
      cases hvisit : w.visit scope site.frame s with
      | mk record? t =>
        have hlearns := learns_of_visit hs hvisit
        cases record? with
        | none => exact hlearns.trans (ihskip t hlearns.soundAt)
        | some emitted =>
            have hadded := hlearns.addRecord site.frame emitted
            have hrest := ihgo emitted t hadded.soundAt
            rw [List.map_append, Site.map_frame_below] at hrest
            exact hadded.trans hrest

/-! ## The calls that are visited -/

/-- The stops of a walk, by what they are in the trace and in the ledger. -/
structure ComesTo (w : Walker) (scope : Scope) (root : Trace) (stops : List Stop)
    (ledger : Ledger) : Prop where
  stopsAt : ∀ stop ∈ stops, w.StopsAt scope root stop
  nodup_paths : (stops.map Stop.path).Nodup
  /-- The calls with a record are those of the transactions. -/
  records_eq : ledger.transactions.map Transaction.withoutMetadata =
    (records (stops.map Stop.toVisit)).map (·.transaction.withoutMetadata)
  /-- A call is visited if it is above the depth limit, and if every call above it has a record
  and succeeded. -/
  visited_iff : ∀ path, (root.at? path).isSome = true →
    ((∃ stop ∈ stops, stop.path = path ∧ w.Visits stop) ↔
      (UInt16.ofNat path.length).toUInt64 < w.config.maxDepth ∧
        ∀ above, above <+: path → above ≠ path →
          ∃ stop ∈ stops, stop.path = above ∧ stop.IsOpen)
  /-- Under an accepted configuration no depth is too large for a level. -/
  visited_iff_of_validate : w.config.validate = .ok () → ∀ path,
    (root.at? path).isSome = true →
      ((∃ stop ∈ stops, stop.path = path ∧ w.Visits stop) ↔
        path.length < w.config.maxDepth.toNat ∧
          ∀ above, above <+: path → above ≠ path →
            ∃ stop ∈ stops, stop.path = above ∧ stop.IsOpen)

theorem comesTo_stops (w : Walker) (scope : Scope) (parent : String) (root : Trace)
    (s : ResolverState) :
    w.ComesTo scope root (w.stops scope parent root .empty s)
      (w.walk scope parent root .empty s).2.1 := by
  have hvisited : ∀ path, (root.at? path).isSome = true →
      ((∃ stop ∈ w.stops scope parent root .empty s, stop.path = path ∧ w.Visits stop) ↔
        (UInt16.ofNat path.length).toUInt64 < w.config.maxDepth ∧
          ∀ above, above <+: path → above ≠ path →
            ∃ stop ∈ w.stops scope parent root .empty s, stop.path = above ∧ stop.IsOpen) := by
    intro path hpath
    rw [← exists_stop_iff hpath]
    constructor
    · rintro ⟨stop, hstop, rfl, hvisits⟩
      rw [Visits, level_frame_of_mem_stops hstop] at hvisits
      exact ⟨hvisits, stop, hstop, rfl⟩
    · rintro ⟨hlt, stop, hstop, rfl⟩
      rw [← level_frame_of_mem_stops hstop] at hlt
      exact ⟨stop, hstop, rfl, hlt⟩
  refine ⟨fun stop => stopsAt_of_mem_stops, w.nodup_path_stops scope parent root .empty s, ?_,
    hvisited, fun hc path hpath => ?_⟩
  · rw [(w.walk_eq_stops scope parent root .empty s).1, List.map_append]
    exact Emitted.map_withoutMetadata_transactions _ _
  · have hlimit := Config.maxDepth_le_of_validate hc
    rw [hvisited path hpath]
    refine and_congr_left fun habove => ?_
    obtain ⟨stop, hstop, rfl⟩ := (exists_stop_iff hpath).mpr habove
    have hle := length_path_le_of_mem_stops hlimit hstop
    rw [← UInt64.not_le, w.maxDepth_le_level_iff (Nat.le_trans hle hlimit), Nat.not_le]

/-! ## Whole walks -/

/-- What a walk that resolves addresses learns of them. -/
structure Resolves (w : Walker) (scope : Scope) (stops : List Stop) (ledger : Ledger) :
    Prop where
  /-- Both addresses of a visited call are filed as they are resolved. -/
  filed : ∀ stop ∈ stops, w.Visits stop → ∀ address ∈ stop.parties,
    ∃ info ∈ ledger.addresses.toList, info.place = (w.told scope address).place
  /-- What is filed is an address of a visited call or an actor that a call created. -/
  origin : ∀ info ∈ ledger.addresses.toList,
    (∃ stop ∈ stops, w.Visits stop ∧ ∃ address ∈ stop.parties,
      (w.told scope address).place = info.place) ∨ ∃ stop ∈ stops, Created stop info
  /-- The failures of each address are told when it is first visited. -/
  failures_eq : ledger.failures =
    ((stops.filter (w.Visits ·)).flatMap Stop.parties).eraseDups.flatMap fun address =>
      (w.resolver.lookup address scope.tipset.key).failures
  nodup_failures : ledger.failures.Nodup

/-- What a walk that resolves no addresses leaves behind. -/
structure ResolvesNothing (stops : List Stop) (ledger : Ledger) (s t : ResolverState) : Prop where
  /-- Nothing was asked. -/
  resolver_eq : t = s
  failures_eq : ledger.failures = []
  origin : ∀ info ∈ ledger.addresses.toList, ∃ stop ∈ stops, Created stop info

theorem flatMap_askedAt {w : Walker} (h : w.config.resolveAddresses = true) (stops : List Stop) :
    stops.flatMap w.askedAt = (stops.filter (w.Visits ·)).flatMap Stop.parties := by
  induction stops with
  | nil => rfl
  | cons stop rest ih =>
      rw [List.flatMap_cons, ih]
      by_cases hvisits : w.Visits stop
      · rw [askedAt, if_pos ⟨hvisits, h⟩, List.filter_cons, if_pos (decide_eq_true hvisits),
          List.flatMap_cons]
      · rw [askedAt, if_neg fun hn => hvisits hn.1, List.filter_cons, if_neg (by simpa),
          List.nil_append]

theorem flatMap_askedAt_of_not {w : Walker} (h : w.config.resolveAddresses = false)
    (stops : List Stop) : stops.flatMap w.askedAt = [] :=
  List.flatMap_eq_nil_iff.mpr fun stop _ => if_neg fun hn => by simp [h] at hn

/-- The places of a book are those of what was filed at the stops. -/
theorem mem_place_iff {w : Walker} {scope : Scope} {stops : List Stop} {p : String × String} :
    p ∈ (AddressBook.ofList (stops.flatMap (w.filedAt scope))).toList.map place ↔
      (∃ address ∈ stops.flatMap w.askedAt, (w.told scope address).place = p) ∨
        ∃ stop ∈ stops, ∃ created, stop.created? = some created ∧ created.place = p := by
  rw [AddressBook.mem_map_place_toList_iff]
  simp only [List.mem_map, List.mem_flatMap, filedAt, List.mem_append, Option.mem_toList]
  grind

/-- A walk into an empty ledger files the addresses of the calls that it visits, decoded or not,
and the actors that its calls created, and nothing else. It tells each failure of an address once,
if the tipset is a new one. If addresses are not to be resolved the node is not asked. -/
theorem walk_resolves_parties (w : Walker) (scope : Scope) (parent : String) (root : Trace)
    (s : ResolverState) :
    let stops := w.stops scope parent root .empty s
    let result := w.walk scope parent root .empty s
    w.ComesTo scope root stops result.2.1 ∧
      (w.config.resolveAddresses = true → (∀ entry ∈ s.cache, entry.1.2 ≠ scope.tipset.key) →
        w.Resolves scope stops result.2.1) ∧
      (w.config.resolveAddresses = false → ResolvesNothing stops result.2.1 s result.2.2) := by
  intro stops result
  have hlearns (hs : w.config.resolveAddresses = true →
      w.resolver.SoundAt scope.tipset.key s) :=
    w.learns_visitAll scope (s := start .empty s) [⟨[], root, parent⟩] hs
  refine ⟨w.comesTo_stops scope parent root s, fun hresolve hs => ?_, fun hresolve => ?_⟩
  · have h := hlearns fun _ => w.resolver.soundAt_of_ne hs
    have haddresses : result.2.1.addresses =
        AddressBook.ofList (stops.flatMap (w.filedAt scope)) := h.addresses
    have hfailures : result.2.1.failures =
        ((stops.filter (w.Visits ·)).flatMap Stop.parties).eraseDups.flatMap fun address =>
          (w.resolver.lookup address scope.tipset.key).failures := by
      rw [← flatMap_askedAt hresolve, ← (w.resolver.resolveAll_of_ne hs _).1]
      exact h.failures
    constructor
    case filed =>
      intro stop hstop hvisits address haddress
      have hasked : address ∈ stops.flatMap w.askedAt := by
        rw [flatMap_askedAt hresolve]
        exact List.mem_flatMap.mpr
          ⟨stop, List.mem_filter.mpr ⟨hstop, decide_eq_true hvisits⟩, haddress⟩
      rw [haddresses]
      exact List.mem_map.mp (mem_place_iff.mpr (.inl ⟨address, hasked, rfl⟩))
    case origin =>
      intro info hinfo
      rw [haddresses] at hinfo
      refine (mem_place_iff.mp (List.mem_map_of_mem hinfo)).imp_left ?_
      rintro ⟨address, hasked, hplace⟩
      rw [flatMap_askedAt hresolve] at hasked
      obtain ⟨stop, hstop, haddress⟩ := List.mem_flatMap.mp hasked
      obtain ⟨hmem, hvisits⟩ := List.mem_filter.mp hstop
      exact ⟨stop, hmem, of_decide_eq_true hvisits, address, haddress, hplace⟩
    case failures_eq => exact hfailures
    case nodup_failures =>
      rw [hfailures]
      exact w.resolver.nodup_failures scope.tipset.key (nodup_eraseDups _)
  · have h := hlearns fun htrue => by simp [hresolve] at htrue
    have hasked := flatMap_askedAt_of_not hresolve stops
    have hresolver := h.resolver
    have hfailures := h.failures
    rw [show (w.journey scope (start .empty s) [⟨[], root, parent⟩]).flatMap w.askedAt = [] from
      hasked] at hresolver hfailures
    refine ⟨hresolver, hfailures, fun info hinfo => ?_⟩
    have haddresses : result.2.1.addresses =
        AddressBook.ofList (stops.flatMap (w.filedAt scope)) := h.addresses
    rw [haddresses] at hinfo
    rcases mem_place_iff.mp (List.mem_map_of_mem hinfo) with ⟨address, hmem, -⟩ | hcreated
    · rw [hasked] at hmem
      cases hmem
    · exact hcreated

/-- A transfer whose receiver sends some of it back, and the rest on with parameters that are no
value. A call stands below the one that is sent on. -/
def relayed : Trace :=
  let call (sender receiver : UInt64) (params : List UInt8) (subcalls : List Trace) : Trace :=
    ⟨⟨.id sender, .id receiver, 1, 0, params, 0, none, none⟩, some ⟨some 0, [], 0, none⟩, none,
      subcalls, none⟩
  call 1 2 [] [call 2 1 [] [], call 2 3 [0xff] [call 3 4 [] []]]

/-- The node refuses to tell anything of the receiver, at a new tipset. The failures of its address
are told once, though it takes part in three calls; and the addresses of the call that is dropped
are filed, but not those of the call below it. -/
theorem walk_relayed_resolves_parties :
    let w := unaided.withResolver refusing true
    let result := (w.walk scopeOfMessage "tipset" relayed .empty .empty).2.1
    w.config.resolveAddresses = true ∧
      (∀ entry ∈ ResolverState.empty.cache, entry.1.2 ≠ scopeOfMessage.tipset.key) ∧
      w.Resolves scopeOfMessage (w.stops scopeOfMessage "tipset" relayed .empty .empty) result ∧
      result.failures = (refusing.lookup (.id 2) scopeOfMessage.tipset.key).failures ∧
      result.failures.length = 2 ∧
      result.addresses.toList.map AddressInfo.key = ["f01", "f02", "f03"] ∧
      result.transactions.length = 2 ∧ result.skipped.map SkippedCall.calls = [2] := by
  intro w result
  have hs : ∀ entry ∈ ResolverState.empty.cache, entry.1.2 ≠ scopeOfMessage.tipset.key :=
    fun _ h => nomatch h
  have hresolves := (walk_resolves_parties w scopeOfMessage "tipset" relayed .empty).2.1 rfl hs
  refine ⟨rfl, hs, hresolves, ?_⟩
  decide +kernel

end Walker
end TraceLedger
