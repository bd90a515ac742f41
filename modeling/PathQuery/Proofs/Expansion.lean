/-
This file proves that a query may leave out the types on the way. The query that names them all is
planned as well: no node is added between its items, and they follow each other like the nodes along
the walk of the shorter query. Runs of the two plans in the same order end with the same brief
document.
-/

import PathQuery.Proofs.Joins
import PathQuery.Proofs.Stops
import PathQuery.Proofs.Twins

namespace PathQuery

namespace Plan

variable {topology : Topology} {readers : List Reader}

/-! ### The two plans -/

/-- What the plan of a query has in common with that of the query with all types on the way. -/
structure Transparent (topology : Topology) (readers : List Reader) (expanded : Query)
    (plan other : Plan) : Prop where
  /-- Every node of the other plan is the node of an item. -/
  nodes : ∃ profiles, List.Forall₂
    (fun item node => Realises topology readers profiles item node.spec) expanded.items other.nodes
  /-- The nodes of the other plan ask for what those along the walk of the plan do. -/
  alike : ∃ root rest otherRoot others, Along topology plan root rest ∧
    Along topology other otherRoot others ∧ other.nodes = otherRoot :: others ∧
    (root :: rest).map (·.spec) = other.nodes.map (·.spec)
  /-- The links along the walks have the same mappings. -/
  mappings : plan.links.map (·.mapping) = other.links.map (·.mapping)

/-- Where the items of a query ask for the nodes along the walk of a plan, its own plan has no other
nodes: there is a link from every item to the next. -/
theorem transparent_of_laidOut (named : topology.Named) {query expanded : Query}
    {profiles : List String} {plan other : Plan} {first goal : Node}
    {others hops walk items more path : List Node}
    (laidOut : LaidOut query topology readers profiles plan first others hops walk)
    (laidOutToo : LaidOut expanded topology readers profiles other goal items more path)
    (realised : List.Forall₂ (fun item node => Realises topology readers profiles item node.spec)
      expanded.items (first :: walk)) :
    Transparent topology readers expanded plan other := by
  have specs := specs_eq_of_realised realised laidOutToo.realised
  have kinds : (first :: walk).map (·.spec.kind) = (goal :: items).map (·.spec.kind) := by
    have same := congrArg (List.map Spec.kind) specs
    rwa [List.map_map, List.map_map] at same
  obtain ⟨rfl, same⟩ :=
    laidOutToo.spells.eq_of_linked named (kinds ▸ laidOut.along.joined.follows)
  obtain ⟨-, rfl⟩ := List.cons.inj same
  have nodes : other.nodes = goal :: path := laidOutToo.nodes.trans (List.append_nil _)
  exact {
    nodes := ⟨profiles, nodes ▸ laidOutToo.realised⟩
    alike := ⟨first, walk, goal, path, laidOut.along, laidOutToo.along, nodes, nodes ▸ specs⟩
    mappings := laidOut.along.joined.mappings laidOutToo.along.joined kinds }

/-- A query with all types on the way is planned like the query itself. -/
theorem transparent_of_compile (named : topology.Named) {query : Query} {plan : Plan}
    (compiled : compile query topology readers = .ok plan) (mark : LinkMark) :
    ∃ expanded other, query.expanded mark topology = .ok expanded ∧
      expanded.expanded mark topology = .ok expanded ∧
      compile expanded topology readers = .ok other ∧
      Transparent topology readers expanded plan other := by
  obtain ⟨offer, profiles, first, others, hops, walk, given, chosen, laidOut⟩ :=
    laidOut_of_compile compiled
  obtain ⟨realises, realised⟩ := List.forall₂_cons.mp laidOut.realised
  have follows := laidOut.along.joined.follows
  obtain ⟨sequence, stops, found⟩ :=
    withStops_of_spells mark named laidOut.spells realised laidOut.plain
  let expanded : Query := { query with sequence }
  have done : query.expanded mark topology = .ok expanded :=
    bind_eq_ok.mpr ⟨_, realises.kind, bind_eq_ok.mpr ⟨sequence, stops, rfl⟩⟩
  have again : expanded.expanded mark topology = .ok expanded :=
    bind_eq_ok.mpr ⟨_, realises.kind, bind_eq_ok.mpr
      ⟨sequence, withStops_of_linked mark named found follows, rfl⟩⟩
  have all : List.Forall₂ (fun item node => Realises topology readers profiles item node.spec)
      expanded.items (first :: walk) := .cons realises found
  obtain ⟨other, compiledToo⟩ := compile_of_plannable
    (plannable_expanded named (plannable_of_compile compiled) done all follows)
  obtain ⟨_, _, goal, items, more, path, givenToo, chosenToo, laidOutToo⟩ :=
    laidOut_of_compile compiledToo
  cases given.symm.trans givenToo
  cases chosen.symm.trans chosenToo
  exact ⟨expanded, other, done, again, compiledToo,
    transparent_of_laidOut named laidOut laidOutToo all⟩

end Plan

namespace Run

variable {topology : Topology} {readers : List Reader}

/-- Over a topology that is built from documents, a query that is planned may name all types on the
way or leave them out. Naming them a second time changes nothing. The query with all of them is
planned without a further node, its nodes and links ask for the same in the same order, and where
different components get different identities, runs of both plans in the same order, first in,
first out among them wherever the workers are started, end with the same brief document. -/
theorem expansion_is_transparent {items : List Schema.Items} {links : List Schema.Links}
    (built : Topology.build items links = .ok topology) {query : Query} {plan : Plan}
    (compiled : Plan.compile query topology readers = .ok plan) (mark : LinkMark) :
    ∃ expanded other, query.expanded mark topology = .ok expanded ∧
      expanded.expanded mark topology = .ok expanded ∧
      Plan.compile expanded topology readers = .ok other ∧
      Plan.Transparent topology readers expanded plan other ∧
      (CollisionFree plan → CollisionFree other →
        (∀ order format, (plan.runIn order).map (·.rendered .normal format) =
          (other.runIn order).map (·.rendered .normal format)) ∧
        ∀ machine size, Machine.Starts machine size → ∃ result otherResult,
          plan.run machine size = .ok result ∧ other.run machine size = .ok otherResult ∧
            ∀ format, result.rendered .normal format = otherResult.rendered .normal format) := by
  have named := Topology.named_of_build built
  obtain ⟨expanded, other, done, again, compiledToo, transparent⟩ :=
    Plan.transparent_of_compile named compiled mark
  refine ⟨expanded, other, done, again, compiledToo, transparent, fun free freeToo => ?_⟩
  obtain ⟨root, rest, otherRoot, others, along, alongToo, nodes, alike⟩ := transparent.alike
  have reports : ∀ order, (plan.runIn order).map (·.report .normal) =
      (other.runIn order).map (·.report .normal) :=
    report_of_runIn along alongToo (nodes ▸ alike) free freeToo
  have documents : ∀ order format, (plan.runIn order).map (·.rendered .normal format) =
      (other.runIn order).map (·.rendered .normal format) := by
    intro order format
    have same := congrArg (Option.map fun report => format.document (Report.outline report))
      (reports order)
    rwa [Option.map_map, Option.map_map] at same
  refine ⟨documents, fun machine size starts => ?_⟩
  obtain ⟨result, ran⟩ := run_ok along.set starts
  obtain ⟨otherResult, ranToo⟩ := run_ok alongToo.set starts
  exact ⟨result, otherResult, ran, ranToo, fun format => run_alike
    (Plan.built_of_compile compiled).wellFormed (Plan.built_of_compile compiledToo).wellFormed
    (documents · format) ran ranToo⟩

/-! ### A type named and left out -/

/-- The documents of three types and of the links between them. -/
def threeTypesItems : Schema.Items :=
  ⟨["a", "b", "c"].map fun name => ⟨"lab." ++ name, [⟨"id", false⟩, ⟨name, false⟩]⟩⟩

def threeTypesLinks : Schema.Links :=
  ⟨[("a", "b"), ("b", "c"), ("c", "c")].map fun ends =>
    ⟨"lab." ++ ends.1, "lab." ++ ends.2, ⟨ends.2, "id"⟩⟩⟩

theorem threeTypes_built :
    Topology.build [threeTypesItems] [threeTypesLinks] = .ok Plan.threeTypes := by
  cbv

/-- A memory of which the first record leads by way of a second one to a third, and on to a last
one. -/
def leading : Reader.Memory :=
  ((((Reader.Memory.empty "lab" ["main"]).store "main" "a" [("id", "1"), ("b", "2")]).store
    "main" "b" [("id", "2"), ("c", "3")]).store "main" "c" [("id", "3"), ("c", "1")]).store
    "main" "c" [("id", "1"), ("c", "1")]

/-- The node for whole records of a type. -/
def leadingNode (id name : String) : Plan.Node :=
  ⟨id, ⟨⟨"lab", name⟩, ["main"], [], [], leading.reader⟩⟩

/-- The node for which the query has modifiers. -/
def searchingNode (id : String) : Plan.Node :=
  ⟨id, ⟨⟨"lab", "c"⟩, ["main"], ["id", "c"], [.equals "c" "1"], leading.reader⟩⟩

/-- The plan of the query that leaves out the type in between. Its node is numbered last. -/
def omitting : Plan where
  nodes := [leadingNode "ROOT" "a", searchingNode "n-1", leadingNode "n-2" "c",
    leadingNode "n-3" "b"]
  links := [⟨"ROOT", "n-3", ⟨"b", "id"⟩⟩, ⟨"n-3", "n-1", ⟨"c", "id"⟩⟩, ⟨"n-1", "n-2", ⟨"c", "id"⟩⟩]

/-- The plan of the query that names the type in between. -/
def naming : Plan where
  nodes := [leadingNode "ROOT" "a", leadingNode "n-1" "b", searchingNode "n-2",
    leadingNode "n-3" "c"]
  links := [⟨"ROOT", "n-1", ⟨"b", "id"⟩⟩, ⟨"n-1", "n-2", ⟨"c", "id"⟩⟩, ⟨"n-2", "n-3", ⟨"c", "id"⟩⟩]

/-- The query that names the type in between. -/
def twiceNamed : Query :=
  { Plan.twice with sequence := (.short, .stop ⟨"lab", "b"⟩) :: Plan.twice.sequence }

theorem twice_expanded : Plan.twice.expanded .short Plan.threeTypes = .ok twiceNamed := by cbv

theorem omitting_compiles :
    Plan.compile Plan.twice Plan.threeTypes [leading.reader] = .ok omitting := by
  cbv

theorem naming_compiles :
    Plan.compile twiceNamed Plan.threeTypes [leading.reader] = .ok naming := by
  cbv

theorem omitting_root : omitting.root = .ok (leadingNode "ROOT" "a") := rfl

theorem naming_root : naming.root = .ok (leadingNode "ROOT" "a") := rfl

/-- The identities of the items along both chains and of the tasks that follow them. -/
theorem leading_identities :
    Identity.item "ROOT" "main" "1" = "295a1cb32e6f8c79" ∧
    Identity.task "295a1cb32e6f8c79" "n-3" = "91325fa9dc7ec7b4" ∧
    Identity.item "91325fa9dc7ec7b4" "main" "2" = "2e14689c44dd3bf9" ∧
    Identity.task "2e14689c44dd3bf9" "n-1" = "ce1301f33c82a843" ∧
    Identity.item "ce1301f33c82a843" "main" "3" = "a3f3fab8734ecb71" ∧
    Identity.task "a3f3fab8734ecb71" "n-2" = "9096fa4069c9b0af" ∧
    Identity.item "9096fa4069c9b0af" "main" "1" = "77cb5539c4dd7146" ∧
    Identity.task "295a1cb32e6f8c79" "n-1" = "877c9fd6ed36e555" ∧
    Identity.item "877c9fd6ed36e555" "main" "2" = "6cadc4c623f11462" ∧
    Identity.task "6cadc4c623f11462" "n-2" = "f9b4df0e12cc6d17" ∧
    Identity.item "f9b4df0e12cc6d17" "main" "3" = "2e24567c8fdd66fe" ∧
    Identity.task "2e24567c8fdd66fe" "n-3" = "9632ed69878fd719" ∧
    Identity.item "9632ed69878fd719" "main" "1" = "bcb664d3bcac0f54" := by
  decide +kernel

/-- A task that looks for an identifier. -/
def leadingTask (id node name : String) (base : List Condition) (wanted item : String) : Task :=
  ⟨id, node, ⟨"lab", name⟩, base, [.equals "id" wanted], some item⟩

def omittingTasks : List Task :=
  [.ofRoot (leadingNode "ROOT" "a"),
    leadingTask "91325fa9dc7ec7b4" "n-3" "b" [] "2" "295a1cb32e6f8c79",
    leadingTask "ce1301f33c82a843" "n-1" "c" [.equals "c" "1"] "3" "2e14689c44dd3bf9",
    leadingTask "9096fa4069c9b0af" "n-2" "c" [] "1" "a3f3fab8734ecb71"]

def namingTasks : List Task :=
  [.ofRoot (leadingNode "ROOT" "a"),
    leadingTask "877c9fd6ed36e555" "n-1" "b" [] "2" "295a1cb32e6f8c79",
    leadingTask "f9b4df0e12cc6d17" "n-2" "c" [.equals "c" "1"] "3" "6cadc4c623f11462",
    leadingTask "9632ed69878fd719" "n-3" "c" [] "1" "2e24567c8fdd66fe"]

theorem tasks_omitting : omitting.tasks (leadingNode "ROOT" "a") = omittingTasks := by
  have follows : omitting.tasks (leadingNode "ROOT" "a") =
      [.ofRoot (leadingNode "ROOT" "a"),
        .follow (Identity.item "ROOT" "main" "1") ⟨"ROOT", "n-3", ⟨"b", "id"⟩⟩
          (leadingNode "n-3" "b") "2",
        .follow (Identity.item (Identity.task (Identity.item "ROOT" "main" "1") "n-3") "main" "2")
          ⟨"n-3", "n-1", ⟨"c", "id"⟩⟩ (searchingNode "n-1") "3",
        .follow (Identity.item (Identity.task (Identity.item (Identity.task
            (Identity.item "ROOT" "main" "1") "n-3") "main" "2") "n-1") "main" "3")
          ⟨"n-1", "n-2", ⟨"c", "id"⟩⟩ (leadingNode "n-2" "c") "1"] := rfl
  rw [follows]
  simp only [Task.follow, leadingNode, searchingNode, leading_identities]
  rfl

theorem tasks_naming : naming.tasks (leadingNode "ROOT" "a") = namingTasks := by
  have follows : naming.tasks (leadingNode "ROOT" "a") =
      [.ofRoot (leadingNode "ROOT" "a"),
        .follow (Identity.item "ROOT" "main" "1") ⟨"ROOT", "n-1", ⟨"b", "id"⟩⟩
          (leadingNode "n-1" "b") "2",
        .follow (Identity.item (Identity.task (Identity.item "ROOT" "main" "1") "n-1") "main" "2")
          ⟨"n-1", "n-2", ⟨"c", "id"⟩⟩ (searchingNode "n-2") "3",
        .follow (Identity.item (Identity.task (Identity.item (Identity.task
            (Identity.item "ROOT" "main" "1") "n-1") "main" "2") "n-2") "main" "3")
          ⟨"n-2", "n-3", ⟨"c", "id"⟩⟩ (leadingNode "n-3" "c") "1"] := rfl
  rw [follows]
  simp only [Task.follow, leadingNode, searchingNode, leading_identities]
  rfl

theorem omitting_collisionFree : CollisionFree omitting := by
  have closed := closed_tasks (Plan.built_of_compile omitting_compiles).wellFormed omitting_root
  rw [tasks_omitting] at closed
  refine closed.collisionFree ?_
  show [Identity.item "ROOT" "main" "1", Identity.task (Identity.item "ROOT" "main" "1") "n-3",
    Identity.item "91325fa9dc7ec7b4" "main" "2",
    Identity.task (Identity.item "91325fa9dc7ec7b4" "main" "2") "n-1",
    Identity.item "ce1301f33c82a843" "main" "3",
    Identity.task (Identity.item "ce1301f33c82a843" "main" "3") "n-2",
    Identity.item "9096fa4069c9b0af" "main" "1"].Nodup
  simp only [leading_identities]
  decide

theorem naming_collisionFree : CollisionFree naming := by
  have closed := closed_tasks (Plan.built_of_compile naming_compiles).wellFormed naming_root
  rw [tasks_naming] at closed
  refine closed.collisionFree ?_
  show [Identity.item "ROOT" "main" "1", Identity.task (Identity.item "ROOT" "main" "1") "n-1",
    Identity.item "877c9fd6ed36e555" "main" "2",
    Identity.task (Identity.item "877c9fd6ed36e555" "main" "2") "n-2",
    Identity.item "f9b4df0e12cc6d17" "main" "3",
    Identity.task (Identity.item "f9b4df0e12cc6d17" "main" "3") "n-3",
    Identity.item "9632ed69878fd719" "main" "1"].Nodup
  simp only [leading_identities]
  decide

/-- Four records are found one under the other, whether the query names the type in between or not.
The nodes have different numbers, and the brief documents are equal. -/
theorem expansion_is_transparent_twice :
    Plan.compile Plan.twice Plan.threeTypes [leading.reader] = .ok omitting ∧
    Plan.twice.expanded .short Plan.threeTypes = .ok twiceNamed ∧
    Plan.compile twiceNamed Plan.threeTypes [leading.reader] = .ok naming ∧
    ∃ result otherResult, omitting.run .unlimited 4 = .ok result ∧
      naming.run .unlimited 4 = .ok otherResult ∧ result.size = 4 ∧ otherResult.size = 4 ∧
      ∀ format, result.rendered .normal format = otherResult.rendered .normal format := by
  obtain ⟨expanded, other, done, -, compiled, -, runs⟩ :=
    expansion_is_transparent threeTypes_built omitting_compiles .short
  cases twice_expanded.symm.trans done
  cases naming_compiles.symm.trans compiled
  obtain ⟨result, otherResult, ran, ranToo, same⟩ :=
    (runs omitting_collisionFree naming_collisionFree).2 .unlimited 4 rfl
  have groups := size_of_run omitting_root ran
  have groupsToo := size_of_run naming_root ranToo
  rw [tasks_omitting] at groups
  rw [tasks_naming] at groupsToo
  exact ⟨omitting_compiles, twice_expanded, naming_compiles, result, otherResult, ran, ranToo,
    groups (by decide), groupsToo (by decide), same⟩

end Run

end PathQuery
