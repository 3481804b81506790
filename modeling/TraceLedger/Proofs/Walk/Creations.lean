import TraceLedger.Proofs.AddressBook.Contents
import TraceLedger.Proofs.Walk.Accounting
import TraceLedger.Proofs.Walk.Journey
import TraceLedger.Proofs.Walk.Rules

/-! # Created actors

A walk files the actor that a call returned as one that the call created, and so the record of
the actor tells in which message. Calls below a failed one are not visited, but the exit code of
the call itself is not looked at: what a failed call returned is filed too. Nodes tell nothing of
creations. -/

namespace TraceLedger

namespace Creation

/-- An actor is created in the message that the call belongs to. -/
theorem creationTxHash_of_created? {creation : Creation} {ctx : CallContext}
    {actors : ActorRegistry} {params result : List UInt8} {info : AddressInfo}
    (h : creation.created? ctx actors params result = some info) :
    info.creationTxHash = some ctx.txCid := by
  cases creation with
  | nothing => cases h
  | actor size =>
      obtain ⟨actor, -, rfl⟩ := Option.map_eq_some_iff.mp h
      rfl
  | miner =>
      obtain ⟨actor, -, rfl⟩ := Option.map_eq_some_iff.mp h
      rfl
  | contract =>
      obtain ⟨contract, -, hinfo⟩ := Option.bind_eq_some_iff.mp h
      obtain ⟨delegated, -, rfl⟩ := Option.map_eq_some_iff.mp hinfo
      rfl

/-- A call that returned nothing created nothing. -/
theorem created?_nil (creation : Creation) (ctx : CallContext) (actors : ActorRegistry)
    (params : List UInt8) : creation.created? ctx actors params [] = none := by
  cases creation <;> rfl

end Creation

namespace Call

theorem created_of_decode {ctx : CallContext} {actors : ActorRegistry} {c : Call}
    {d : DecodedCall} (h : c.decode ctx actors = .ok d) :
    d.created = c.created? ctx actors := by
  rw [decode_eq] at h
  split at h
  · cases h
  · split at h
    · cases h
    · cases h
      rfl

theorem creationTxHash_of_created? {ctx : CallContext} {actors : ActorRegistry} {c : Call}
    {info : AddressInfo} (h : c.created? ctx actors = some info) :
    info.creationTxHash = some ctx.txCid := by
  unfold created? at h
  split at h
  · cases h
  · split at h
    · exact Creation.creationTxHash_of_created? h
    · cases h

theorem created?_of_result_eq_nil {ctx : CallContext} {actors : ActorRegistry} {c : Call}
    (h : c.result = []) : c.created? ctx actors = none := by
  unfold created?
  split
  · rfl
  · split
    · rw [h, Creation.created?_nil]
    · rfl

end Call

/-! ## What nodes tell -/

/-- No record that was learnt of an address tells of a creation. -/
def ResolverState.KnowsNoCreation (s : ResolverState) : Prop :=
  ∀ entry ∈ s.cache, entry.2.creationTxHash = none

theorem ResolverState.knowsNoCreation_empty : ResolverState.empty.KnowsNoCreation :=
  fun _ h => nomatch h

namespace Resolver

theorem creationTxHash_lookup (r : Resolver) (address : Address) (tipset : TipsetKey) :
    (r.lookup address tipset).info.creationTxHash = none := by
  unfold lookup
  split <;> rfl

/-- Resolving an address tells of no creation, now or later. -/
theorem knowsNoCreation_resolve (r : Resolver) (address : Address) (tipset : TipsetKey)
    {s : ResolverState} (hs : s.KnowsNoCreation) :
    (r.resolve address tipset s).1.info.creationTxHash = none ∧
      (r.resolve address tipset s).2.KnowsNoCreation := by
  unfold resolve
  cases hfind : s.find? address tipset with
  | some info =>
      obtain ⟨entry, hentry, rfl⟩ := Option.map_eq_some_iff.mp hfind
      exact ⟨hs entry (List.mem_of_find?_eq_some hentry), hs⟩
  | none =>
      simp only [inquire_eq]
      have hlookup := r.creationTxHash_lookup address tipset
      exact ⟨hlookup, List.forall_mem_cons.mpr ⟨hlookup, hs⟩⟩

end Resolver

/-! ## What is filed -/

/-- The actor that the call of a stop created. -/
def Stop.created? (stop : Stop) : Option AddressInfo := stop.record?.bind (·.decoded.created)

/-- The records among those given that tell of a creation. -/
def AddressInfo.creations (infos : List AddressInfo) : List AddressInfo :=
  infos.filter (·.creationTxHash.isSome)

namespace Walker

open Visit AddressInfo

/-- A state of a walk after records were filed, of which those that tell of a creation are
given. -/
structure Files (s : WalkState) (created : List AddressInfo) (t : WalkState) : Prop where
  addresses : ∃ infos, t.addresses = infos.foldl AddressBook.add s.addresses ∧
    creations infos = created
  knowsNoCreation : t.resolver.KnowsNoCreation

theorem Files.refl {s : WalkState} (hs : s.resolver.KnowsNoCreation) : Files s [] s :=
  ⟨⟨[], rfl, rfl⟩, hs⟩

theorem Files.trans {s t u : WalkState} {first second : List AddressInfo}
    (h : Files s first t) (h' : Files t second u) : Files s (first ++ second) u := by
  obtain ⟨infos, haddresses, rfl⟩ := h.addresses
  obtain ⟨others, hothers, rfl⟩ := h'.addresses
  refine ⟨⟨infos ++ others, ?_, List.filter_append _ _⟩, h'.knowsNoCreation⟩
  rw [hothers, haddresses, List.foldl_append]

theorem files_recordAddress (w : Walker) (scope : Scope) (address : Address) {s : WalkState}
    (hs : s.resolver.KnowsNoCreation) : Files s [] (w.recordAddress scope address s).2 := by
  obtain ⟨hinfo, hknows⟩ := w.resolver.knowsNoCreation_resolve address scope.tipset.key hs
  refine ⟨?_, hknows⟩
  simp only [recordAddress]
  split
  · exact ⟨[], rfl, rfl⟩
  · exact ⟨[_], rfl, by simp [creations, hinfo]⟩

theorem files_recordParties (w : Walker) (scope : Scope) (message : Trace.Message)
    {s : WalkState} (hs : s.resolver.KnowsNoCreation) :
    Files s [] (w.recordParties scope message s).2 := by
  unfold recordParties
  split
  · have hsender := w.files_recordAddress scope message.sender hs
    exact hsender.trans (w.files_recordAddress scope message.receiver hsender.knowsNoCreation)
  · exact Files.refl hs

/-- What a record says was created is what its call returned. -/
theorem created_of_describes {w : Walker} {scope : Scope} {frame : Frame} {index : Nat}
    {receiver : ActorKind} {e : Emitted} (h : w.Describes scope frame index receiver e)
    {info : AddressInfo} (hcreated : e.decoded.created = some info) :
    ∃ receipt, frame.trace.receipt = .ok receipt ∧
      (w.callOf scope frame.trace (w.actorOf frame.trace receiver) receipt.result).created?
        (w.context scope) w.codecActors = some info := by
  have hdecoding := h.decoding
  unfold decodingOf at hdecoding
  split at hdecoding
  next =>
    rw [← Except.ok.inj hdecoding] at hcreated
    cases hcreated
  next receipt hreceipt =>
    refine ⟨receipt, hreceipt, ?_⟩
    rw [← Call.created_of_decode hdecoding, hcreated]

/-- A visit files the actor that its call created, and nothing else that tells of a creation. -/
theorem files_of_visit {w : Walker} {scope : Scope} {site : Site} {s t : WalkState}
    (hs : s.resolver.KnowsNoCreation) {record? : Option Emitted}
    (h : w.visit scope site.frame s = (record?, t)) :
    Files s (w.stopAt scope site s).created?.toList t := by
  have hparties := w.files_recordParties scope site.frame.trace.message hs
  rw [Stop.created?, record?_stopAt h]
  unfold visit at h
  split at h
  next =>
    cases h
    exact ⟨⟨[], rfl, rfl⟩, hs⟩
  next =>
    simp only at h
    split at h
    next =>
      cases h
      exact ⟨hparties.addresses, hparties.knowsNoCreation⟩
    next emitted hemit =>
      cases h
      cases hcreated : emitted.decoded.created with
      | none =>
          refine ⟨?_, hparties.knowsNoCreation⟩
          simpa [fileCreated, hcreated] using hparties.addresses
      | some info =>
          obtain ⟨receipt, -, hinfo⟩ := created_of_describes (describes_of_emit hemit) hcreated
          have hhash := Call.creationTxHash_of_created? hinfo
          refine hparties.trans ⟨⟨[info], ?_, ?_⟩, hparties.knowsNoCreation⟩
          · simp [fileCreated, hcreated]
          · simp [creations, hhash, hcreated]

theorem Files.addRecord {s t : WalkState} {created : List AddressInfo} (h : Files s created t)
    (frame : Frame) (emitted : Emitted) : Files s created (addRecord frame emitted t) :=
  ⟨h.addresses, h.knowsNoCreation⟩

/-- What visits file, by induction over the calls that lie before the walk. -/
theorem files_visitAll (w : Walker) (scope : Scope) {s : WalkState} (sites : List Site)
    (hs : s.resolver.KnowsNoCreation) :
    Files s ((w.journey scope s sites).flatMap (·.created?.toList))
      (w.visitAll scope s (sites.map Site.frame)) := by
  induction s, sites using journey.induct with
  | case1 s =>
      rw [journey, List.map_nil, visitAll]
      exact Files.refl hs
  | case2 s site rest ihskip ihgo =>
      rw [journey, List.map_cons, visitAll, List.flatMap_cons]
      cases hvisit : w.visit scope site.frame s with
      | mk record? t =>
        have hfiles := files_of_visit hs hvisit
        cases record? with
        | none => exact hfiles.trans (ihskip t hfiles.knowsNoCreation)
        | some emitted =>
            have hadded := hfiles.addRecord site.frame emitted
            have hrest := ihgo emitted t hadded.knowsNoCreation
            rw [List.map_append, Site.map_frame_below] at hrest
            exact hadded.trans hrest

/-- What a walk into an empty ledger files. -/
theorem exists_filed (w : Walker) (scope : Scope) (parent : String) (root : Trace)
    {s : ResolverState} (hs : s.KnowsNoCreation) :
    ∃ infos, (w.walk scope parent root .empty s).2.1.addresses = AddressBook.ofList infos ∧
      ∀ created, created ∈ creations infos ↔
        ∃ stop ∈ w.stops scope parent root .empty s, stop.created? = some created := by
  have h := w.files_visitAll scope (s := start .empty s) [⟨[], root, parent⟩] hs
  obtain ⟨infos, haddresses, hinfos⟩ := h.addresses
  refine ⟨infos, haddresses, fun created => ?_⟩
  rw [hinfos]
  simp [stops]

end Walker

/-! ## What is found in the book -/

namespace AddressBook

open AddressInfo

/-- A record tells of a creation that one of those filed at its place tells of. -/
theorem exists_creation_of_mem {infos : List AddressInfo} {info : AddressInfo}
    (h : info ∈ (ofList infos).toList) {message : String}
    (hmessage : info.creationTxHash = some message) :
    ∃ a ∈ creations infos, a.place = info.place ∧ a.creationTxHash = some message := by
  rw [eq_gather_of_mem_toList h] at hmessage
  obtain ⟨value, hvalue, rfl⟩ := List.exists_of_findSome?_eq_some hmessage
  obtain ⟨a, ha, hhash⟩ := List.mem_map.mp hvalue
  obtain ⟨hmem, hplace⟩ := List.mem_filter.mp ha
  refine ⟨a, ?_, of_decide_eq_true hplace, hhash⟩
  exact List.mem_filter.mpr ⟨hmem, by simp [hhash]⟩

/-- No creation that was filed is lost. -/
theorem isSome_creationTxHash_of_mem {infos : List AddressInfo} {info a : AddressInfo}
    (h : info ∈ (ofList infos).toList) (ha : a ∈ creations infos) (hplace : a.place = info.place) :
    info.creationTxHash.isSome = true := by
  obtain ⟨hmem, hsome⟩ := List.mem_filter.mp ha
  have hfiled : a ∈ filedAt infos info.place := List.mem_filter.mpr ⟨hmem, by simp [hplace]⟩
  rw [eq_gather_of_mem_toList h]
  exact List.findSome?_isSome_iff.mpr ⟨_, List.mem_map_of_mem hfiled, hsome⟩

theorem exists_mem_of_mem_creations {infos : List AddressInfo} {a : AddressInfo}
    (ha : a ∈ creations infos) :
    ∃ info ∈ (ofList infos).toList, info.place = a.place ∧ info.creationTxHash.isSome = true := by
  have hplace : a.place ∈ infos.map place := List.mem_map_of_mem (List.mem_filter.mp ha).1
  obtain ⟨info, h, hinfo⟩ := List.mem_map.mp (mem_map_place_toList_iff.mpr hplace)
  exact ⟨info, h, hinfo, isSome_creationTxHash_of_mem h ha hinfo.symm⟩

end AddressBook

/-! ## Calls above and below -/

namespace Trace

/-- Every call above a place of the trace succeeded. -/
def SucceedsAbove (root : Trace) (path : List Nat) : Prop :=
  ∀ above, above <+: path → above ≠ path →
    ∃ call, root.at? above = some call ∧ call.isSuccess = true

/-- Calls of the trace that failed returned no bytes. -/
def FailsSilently (root : Trace) : Prop :=
  ∀ path call receipt, root.at? path = some call → call.receipt = .ok receipt →
    receipt.exitCode ≠ 0 → receipt.result = []

theorem succeedsAbove_nil (root : Trace) : root.SucceedsAbove [] := by
  intro above habove hne
  exact absurd (List.prefix_nil.mp habove) hne

/-- Above a call that a successful call made stand that one and those above it. -/
theorem SucceedsAbove.concat {root call : Trace} {path : List Nat} (h : root.SucceedsAbove path)
    (hcall : root.at? path = some call) (hsuccess : call.isSuccess = true) (position : Nat) :
    root.SucceedsAbove (path ++ [position]) := by
  intro above habove hne
  have habove : above <+: path := (List.prefix_concat_iff.mp habove).resolve_left hne
  by_cases heq : above = path
  · exact ⟨call, heq ▸ hcall, hsuccess⟩
  · exact h above habove heq

end Trace

namespace Walker

open Visit AddressInfo

/-- A walk does not go below a call that failed. -/
theorem succeedsAbove_of_mem_stops {w : Walker} {scope : Scope} {parent : String} {root : Trace}
    {ledger : Ledger} {s : ResolverState} {stop : Stop}
    (h : stop ∈ w.stops scope parent root ledger s) : root.SucceedsAbove stop.path := by
  refine forall_mem_journey (P := fun stop => root.SucceedsAbove stop.path)
    (I := fun site => root.at? site.path = some site.trace ∧ root.SucceedsAbove site.path)
    ?_ (fun _ _ hsite => hsite.2) ?_ h
  · rintro site id ⟨hat, habove⟩ sub hsub
    refine ⟨Site.at?_below hat hsub, ?_⟩
    unfold Site.below at hsub
    split at hsub
    next hsuccess =>
      obtain ⟨⟨trace, position⟩, -, rfl⟩ := List.mem_map.mp hsub
      exact habove.concat hat hsuccess position
    next => cases hsub
  · intro site hsite
    rw [List.mem_singleton] at hsite
    rw [hsite]
    exact ⟨rfl, root.succeedsAbove_nil⟩

/-! ## Whole walks -/

/-- The call of a stop created an actor, and the record of an address is at the place of that
actor. -/
def Created (stop : Stop) (info : AddressInfo) : Prop :=
  ∃ created, stop.created? = some created ∧ created.place = info.place

/-- What a walk into an empty ledger makes of the actors that its calls created. -/
structure FilesCreations (w : Walker) (scope : Scope) (root : Trace) (stops : List Stop)
    (book : AddressBook) : Prop where
  /-- A record tells of a creation if a call of the walk created an actor at its place, -/
  isSome_iff : ∀ info ∈ book.toList,
    info.creationTxHash.isSome = true ↔ ∃ stop ∈ stops, Created stop info
  /-- and then tells the message of the walk. -/
  eq_messageCid : ∀ info ∈ book.toList, ∀ message, info.creationTxHash = some message →
    message = scope.messageCid
  /-- No creation is left out. -/
  exists_record : ∀ stop ∈ stops, ∀ created, stop.created? = some created →
    ∃ info ∈ book.toList, info.place = created.place
  /-- What a call created it returned, with whatever exit code. -/
  returned : ∀ stop ∈ stops, ∀ created, stop.created? = some created →
    ∃ receipt, stop.trace.receipt = .ok receipt ∧
      (w.callOf scope stop.trace (w.actorOf stop.trace stop.receiver) receipt.result).created?
        (w.context scope) w.codecActors = some created
  above : ∀ stop ∈ stops, root.SucceedsAbove stop.path
  /-- If failed calls return no bytes, then only calls that succeeded create actors. -/
  of_failsSilently : root.FailsSilently → ∀ info ∈ book.toList,
    info.creationTxHash.isSome = true →
      ∃ stop ∈ stops, Created stop info ∧ stop.trace.isSuccess = true

/-- A stop created what its call returned. -/
theorem returned_of_created?_eq_some {w : Walker} {scope : Scope} {parent : String} {root : Trace}
    {ledger : Ledger} {s : ResolverState} {stop : Stop}
    (h : stop ∈ w.stops scope parent root ledger s) {created : AddressInfo}
    (hcreated : stop.created? = some created) :
    ∃ receipt, stop.trace.receipt = .ok receipt ∧
      (w.callOf scope stop.trace (w.actorOf stop.trace stop.receiver) receipt.result).created?
        (w.context scope) w.codecActors = some created := by
  obtain ⟨emitted, hrecord, hcreated⟩ := Option.bind_eq_some_iff.mp hcreated
  exact created_of_describes ((stopsAt_of_mem_stops h).describes emitted hrecord) hcreated

/-- Where failed calls return nothing, they create nothing. -/
theorem isSuccess_of_created?_eq_some {w : Walker} {scope : Scope} {parent : String}
    {root : Trace} {ledger : Ledger} {s : ResolverState} (hsilent : root.FailsSilently)
    {stop : Stop} (h : stop ∈ w.stops scope parent root ledger s) {created : AddressInfo}
    (hcreated : stop.created? = some created) : stop.trace.isSuccess = true := by
  obtain ⟨receipt, hreceipt, hcall⟩ := returned_of_created?_eq_some h hcreated
  by_cases hexit : receipt.exitCode = 0
  · simp [Trace.isSuccess, hreceipt, hexit]
  · have hresult := hsilent _ _ receipt (stopsAt_of_mem_stops h).trace hreceipt hexit
    rw [Call.created?_of_result_eq_nil hresult] at hcall
    cases hcall

/-- A walk records the creation of every actor that one of its calls returned, whether or not the
call succeeded, though all calls above it did. The message is that of the walk. -/
theorem walk_files_creations (w : Walker) (scope : Scope) (parent : String) (root : Trace)
    {s : ResolverState} (hs : s.KnowsNoCreation) :
    FilesCreations w scope root (w.stops scope parent root .empty s)
      (w.walk scope parent root .empty s).2.1.addresses := by
  obtain ⟨infos, haddresses, hinfos⟩ := w.exists_filed scope parent root hs
  have hcreated : ∀ info ∈ (AddressBook.ofList infos).toList, ∀ message,
      info.creationTxHash = some message → message = scope.messageCid ∧
        ∃ stop ∈ w.stops scope parent root .empty s, Created stop info := by
    intro info h message hmessage
    obtain ⟨created, hmem, hplace, hhash⟩ := AddressBook.exists_creation_of_mem h hmessage
    obtain ⟨stop, hstop, hcreated⟩ := (hinfos created).mp hmem
    obtain ⟨receipt, -, hcall⟩ := returned_of_created?_eq_some hstop hcreated
    have hctx := Call.creationTxHash_of_created? hcall
    exact ⟨Option.some.inj (hhash.symm.trans hctx), stop, hstop, created, hcreated, hplace⟩
  rw [haddresses]
  constructor
  case isSome_iff =>
    intro info h
    constructor
    · intro hsome
      obtain ⟨message, hmessage⟩ := Option.isSome_iff_exists.mp hsome
      exact (hcreated info h message hmessage).2
    · rintro ⟨stop, hstop, created, hcreated, hplace⟩
      have hmem := (hinfos created).mpr ⟨stop, hstop, hcreated⟩
      exact AddressBook.isSome_creationTxHash_of_mem h hmem hplace
  case eq_messageCid => exact fun info h message hmessage => (hcreated info h message hmessage).1
  case exists_record =>
    intro stop hstop created hcreated
    obtain ⟨info, h, hplace, -⟩ := AddressBook.exists_mem_of_mem_creations
      ((hinfos created).mpr ⟨stop, hstop, hcreated⟩)
    exact ⟨info, h, hplace⟩
  case returned => exact fun stop hstop created => returned_of_created?_eq_some hstop
  case above => exact fun stop hstop => succeedsAbove_of_mem_stops hstop
  case of_failsSilently =>
    intro hsilent info h hsome
    obtain ⟨message, hmessage⟩ := Option.isSome_iff_exists.mp hsome
    obtain ⟨-, stop, hstop, created, hcreated, hplace⟩ := hcreated info h message hmessage
    exact ⟨stop, hstop, ⟨created, hcreated, hplace⟩,
      isSuccess_of_created?_eq_some hsilent hstop hcreated⟩

/-- The code of the init actor in early releases. -/
def initCode : Cid := .v1 Cid.raw ⟨Cid.identity, Utf8.encode "fil/1/init", by decide⟩

/-- What the init actor returns of a new actor: its number, which is 1001, and its address. -/
def newActor : List UInt8 := [0x82, 0x43, 0x00, 0xe9, 0x07, 0x55, 0x02] ++ List.replicate 20 1

/-- A call that lets the init actor create an actor, with its exit code. -/
def execCall (exitCode : UInt32) : Trace :=
  ⟨⟨.id 100, .id 1, 0, 2, [], 0, none, none⟩, some ⟨some exitCode, newActor, 0, none⟩,
    some ⟨1, initCode, none⟩, [], none⟩

theorem walk_files_creations_execCall :
    ResolverState.empty.KnowsNoCreation ∧
      FilesCreations unaided scopeOfMessage (execCall 0)
        (unaided.stops scopeOfMessage "tipset" (execCall 0) .empty .empty)
        (unaided.walk scopeOfMessage "tipset" (execCall 0) .empty .empty).2.1.addresses :=
  ⟨ResolverState.knowsNoCreation_empty, walk_files_creations unaided scopeOfMessage "tipset"
    (execCall 0) ResolverState.knowsNoCreation_empty⟩

/-- What the init actor returned is filed even if its call failed, and no call succeeded. -/
theorem walk_files_creation_of_failed_call :
    (execCall 16).receipt = .ok ⟨16, newActor, 0⟩ ∧
      (∃ info ∈ (unaided.walk scopeOfMessage "tipset" (execCall 16) .empty
        .empty).2.1.addresses.toList, info.creationTxHash.isSome = true) ∧
      ∀ stop ∈ unaided.stops scopeOfMessage "tipset" (execCall 16) .empty .empty,
        stop.trace.isSuccess = false := by
  refine ⟨rfl, ?_, ?_⟩
  · let stop := unaided.stopAt scopeOfMessage ⟨[], execCall 16, "tipset"⟩ (start .empty .empty)
    have hstop := unaided.stopAt_root_mem_stops scopeOfMessage "tipset" (execCall 16) .empty .empty
    have hsome : stop.created?.isSome = true := by decide +kernel
    obtain ⟨created, hcreated⟩ := Option.isSome_iff_exists.mp hsome
    obtain ⟨infos, haddresses, hinfos⟩ := unaided.exists_filed scopeOfMessage "tipset"
      (execCall 16) ResolverState.knowsNoCreation_empty
    obtain ⟨info, h, -, hinfo⟩ := AddressBook.exists_mem_of_mem_creations
      ((hinfos created).mpr ⟨stop, hstop, hcreated⟩)
    rw [haddresses]
    exact ⟨info, h, hinfo⟩
  · intro stop hstop
    have hat := (stopsAt_of_mem_stops hstop).trace
    cases hpath : stop.path with
    | nil =>
        rw [hpath] at hat
        rw [← Option.some.inj hat]
        rfl
    | cons position path =>
        rw [hpath] at hat
        cases hat

end Walker
end TraceLedger
