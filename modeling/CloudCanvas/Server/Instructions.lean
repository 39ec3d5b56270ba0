import CloudCanvas.Rules

/-!
# What the server says about itself

## Main definitions

* `serverInstructions`: how to use the tools, and the modeling rules.
-/

namespace CloudCanvas

/-- The lines on what the server is and how its tools are used. -/
def usageLines : List String := [
  "cumulus designs Azure network and compute topologies and compiles them into ARM "
    ++ "deployment templates (or Bicep).",
  "",
  "The design is a graph held in this server's memory:",
  "- **Groups** are containers (virtual networks, subnets, free-form areas). Groups "
    ++ "nest via `parent_id`.",
  "- **Nodes** are resources (VMs, NICs, public IPs, storage, app service). A node "
    ++ "may sit in one group via `group_id`.",
  "- **Links** connect two elements and express dependencies.",
  "Node, group and link ids share one namespace.",
  "",
  "Edits are validated as they are applied: unknown parents, duplicate ids and "
    ++ "links to missing elements are rejected, and a batch is applied all-or-nothing. "
    ++ "Export problems (a VM without a NIC, a subnet outside a virtual network) are "
    ++ "only reported by `export_template` / `export_bicep`, naming the element at "
    ++ "fault."]

/-- The instructions of the server. -/
def serverInstructions : String :=
  "\n".intercalate usageLines ++ "\n\n## Topology Modeling Rules\n" ++ modelingRules

end CloudCanvas
