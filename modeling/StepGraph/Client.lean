import StepGraph.Plugin.Registry
import StepGraph.Run.Basic

/-!
# Clients

A client runs workflows with its own registry, surfaces and clock. Surfaces are numbered from one,
and both numbers and clock go on from run to run; replies that are still on their way when a run
ends are lost.
-/

namespace StepGraph

/-- A client. -/
structure Client where
  /-- The plugins that execute blocks. -/
  registry : Registry
  /-- The options of its runs. -/
  options : Options := {}
  /-- The world as the last run left it. -/
  world : World := {}

namespace Client

/-- The display of a client, which never fails. -/
def display : StatusDisplay where
  appear _ _ := .ok ()
  vanish _ := .ok ()

/-- Those who take part in the runs of a client. -/
def collaborators (client : Client) : Collaborators where
  executor := client.registry.executor
  openSurface earlier _ _ _ := .ok (.int (earlier + 1))
  status := some display

/-- A workflow run by a client, its walks bounded in depth, and the client afterwards. -/
def run (client : Client) (workflow : Workflow) (request : Request) (depth : Nat) :
    Except RunFault RunResult × Client :=
  let (result, after) := workflow.run client.collaborators client.options request depth client.world
  (result, { client with world := { after with late := [] } })

end Client

end StepGraph
