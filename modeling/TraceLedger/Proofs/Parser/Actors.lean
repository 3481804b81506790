import Mathlib.Data.List.Nodup
import TraceLedger.Parser.Builder
import TraceLedger.Proofs.Actor.Manifests
import TraceLedger.Proofs.Version.Schedule

/-! # The actors that a parser is built with

A builder that was given no actors asks its node for a manifest, once for each version of a release
that has one, and fills a registry from the rows in the order of the versions. Answers without rows
and rows that name no actor leave no trace in it. -/

namespace TraceLedger

open ActorRegistry

/-- The rows of the manifest of a version. There are none where the node does not have it. -/
def Node.rowsOf (n : Node) (v : Version) : Manifest :=
  match n.actorCodes v.ordinal with
  | .ok (some rows) => rows
  | _ => []

namespace ParserBuilder

/-! ## Asking for manifests -/

theorem mem_bundled_iff {registry : VersionRegistry} {v : Version} :
    v ∈ bundled registry ↔ v ∈ registry.versions ∧ 8 ≤ v.actors := by
  rw [bundled, List.mem_filter]
  exact and_congr_right fun _ => decide_eq_true_iff

theorem inquireManifest_eq (node : Node) (actors : ActorRegistry) (v : Version)
    (queries : List Query) :
    inquireManifest node actors v queries =
      (actors.addManifest (node.rowsOf v), .codes v.ordinal :: queries) := by
  unfold inquireManifest Node.askCodes Node.rowsOf
  rcases node.actorCodes v.ordinal with e | _ | rows <;> rfl

/-- A version is asked for after those before it, and its rows come after theirs. -/
theorem foldlM_inquireManifest (node : Node) (versions : List Version) (actors : ActorRegistry)
    (queries : List Query) :
    versions.foldlM (inquireManifest node) actors queries =
      (actors.addManifest (versions.flatMap node.rowsOf),
        (versions.map (.codes ·.ordinal)).reverse ++ queries) := by
  induction versions generalizing actors queries with
  | nil => rfl
  | cons v rest ih =>
      have hstep : (v :: rest).foldlM (inquireManifest node) actors queries =
          rest.foldlM (inquireManifest node) (inquireManifest node actors v queries).1
            (inquireManifest node actors v queries).2 := rfl
      rw [hstep, inquireManifest_eq, ih, ← addManifest_append]
      simp

/-- The rows that the node lists for the versions of a builder, in their order. -/
def listedRows (b : ParserBuilder) : Manifest := (bundled b.registry).flatMap b.node.rowsOf

theorem knownActors_eq {b : ParserBuilder} (h : b.actors = none) :
    b.knownActors [] = (empty.addManifest b.listedRows,
      ((bundled b.registry).map (.codes ·.ordinal)).reverse) := by
  rw [knownActors, h, ← List.append_nil (List.reverse _)]
  exact foldlM_inquireManifest b.node (bundled b.registry) empty []

/-- Rows that name no actor do not show in what is listed. -/
theorem addManifest_flatMap_congr {versions : List Version} {node other : Node}
    (h : ∀ v ∈ versions, namedRows (node.rowsOf v) = namedRows (other.rowsOf v)) :
    empty.addManifest (versions.flatMap node.rowsOf) =
      empty.addManifest (versions.flatMap other.rowsOf) := by
  have hnamed (n : Node) : namedRows (versions.flatMap n.rowsOf) =
      versions.flatMap fun v => namedRows (n.rowsOf v) := List.filter_flatMap
  rw [← addManifest_namedRows, hnamed, List.flatMap_congr h, ← hnamed, addManifest_namedRows]

theorem nodup_queries (registry : VersionRegistry) :
    ((bundled registry).map fun v => Query.codes v.ordinal).Nodup := by
  refine List.pairwise_map.mpr ((registry.pairwise_versions.filter _).imp fun h heq => ?_)
  exact h.ordinal_ne (Query.codes.inj heq)

/-! ## Building -/

/-- The parser tells the actors that the node lists, and the node was asked for no more than it has
to be asked for. -/
structure KnowsListed (b : ParserBuilder) (p : TraceParser) (s : ResolverState) : Prop where
  kindOf : ∀ code kind, p.actors.kindOf code = kind ↔ IsKind b.listedRows code kind
  /-- Of an answer only the rows count that name an actor. -/
  same : ∀ node : Node,
    (∀ v ∈ bundled b.registry, namedRows (node.rowsOf v) = namedRows (b.node.rowsOf v)) →
    ∃ p' s', { b with node }.build = .ok (p', s') ∧ p'.actors = p.actors
  codec : b.codecActors = none → p.codecActors = p.actors
  asked_once : ∀ v ∈ b.registry.versions, 8 ≤ v.actors → s.queries.count (.codes v.ordinal) = 1
  asked_only : ∀ q ∈ s.queries, ∃ v ∈ b.registry.versions, 8 ≤ v.actors ∧ q = .codes v.ordinal

theorem build_eq_ok {b : ParserBuilder} (hactors : b.actors = none)
    (hconfig : b.config.validate = .ok ()) :
    b.build = .ok (⟨b.config, b.registry, b.codecActors.getD (empty.addManifest b.listedRows),
      empty.addManifest b.listedRows, b.node⟩,
      ⟨[], ((bundled b.registry).map (.codes ·.ordinal)).reverse⟩) := by
  simp only [build, hconfig, knownActors_eq hactors]

/-- A builder that was given no actors builds a parser that knows those that the node lists. -/
theorem build_knows_listed (b : ParserBuilder) (hactors : b.actors = none)
    (hconfig : b.config.validate = .ok ()) :
    ∃ p s, b.build = .ok (p, s) ∧ KnowsListed b p s := by
  refine ⟨_, _, build_eq_ok hactors hconfig, ?_⟩
  constructor
  case kindOf => exact fun code kind => kindOf_addManifest_iff
  case same =>
    intro node hnode
    have hbuild := build_eq_ok (b := { b with node }) hactors hconfig
    exact ⟨_, _, hbuild, addManifest_flatMap_congr hnode⟩
  case codec =>
    intro hcodec
    simp [hcodec]
  case asked_once =>
    intro v hv hrelease
    have hmem : Query.codes v.ordinal ∈ (bundled b.registry).map fun v => Query.codes v.ordinal :=
      List.mem_map_of_mem (mem_bundled_iff.mpr ⟨hv, hrelease⟩)
    rw [List.count_reverse]
    exact List.count_eq_one_of_mem (nodup_queries b.registry) hmem
  case asked_only =>
    intro q hq
    obtain ⟨v, hv, rfl⟩ := List.mem_map.mp (List.mem_reverse.mp hq)
    obtain ⟨hmem, hrelease⟩ := mem_bundled_iff.mp hv
    exact ⟨v, hmem, hrelease, rfl⟩

/-- A code that two manifests list. -/
def sharedCode : Cid := stubCode .miner

/-- A node with manifests for versions 16 and 18, which has a reason to withhold the one between
them. The later manifest says something else of a code, and something that says nothing. -/
def manifestBuilder : ParserBuilder where
  node := {
    lookupId := fun _ _ => .ok none
    lookupRobust := fun _ _ => .ok none
    actorCode := fun _ _ => .ok none
    actorCodes := fun version =>
      if version = 16 then .ok (some [("account", sharedCode)])
      else if version = 17 then .error "no bundle"
      else if version = 18 then .ok (some [("storageminer", sharedCode), ("bogus", sharedCode)])
      else .ok none }

theorem build_manifestBuilder_knows_listed :
    manifestBuilder.actors = none ∧ manifestBuilder.config.validate = .ok () ∧
      ∃ p s, manifestBuilder.build = .ok (p, s) ∧ KnowsListed manifestBuilder p s ∧
        p.actors.kindOf sharedCode = .miner := by
  obtain ⟨p, s, hbuild, hlisted⟩ := build_knows_listed manifestBuilder rfl rfl
  have hrows : manifestBuilder.listedRows = [("account", sharedCode)] ++
      (ActorKind.miner.name, sharedCode) :: [("bogus", sharedCode)] := rfl
  have hlast : LastListed manifestBuilder.listedRows sharedCode .miner := by
    refine ⟨by decide, _, _, hrows, fun name hmem => ?_⟩
    obtain ⟨rfl, -⟩ := Prod.mk.inj (List.mem_singleton.mp hmem)
    decide
  exact ⟨rfl, rfl, p, s, hbuild, hlisted, (hlisted.kindOf sharedCode .miner).mpr (.listed hlast)⟩

end ParserBuilder
end TraceLedger
