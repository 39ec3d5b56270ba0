/-!
# The tools of the server

## Main definitions

* `Tool` with its name and description.
* `Tool.all`: the tools in the order of their names.
-/

namespace CloudCanvas

/-- A tool that the server offers. -/
inductive Tool where
  | addGroups
  | addLinks
  | addNodes
  | clearDesign
  | deleteElements
  | exportBicep
  | exportTemplate
  | getDesign
  | getRules
  | listDesigns
  | loadDesign
  | saveDesign
  | setProperties
deriving DecidableEq

namespace Tool

/-- All tools, in the order of their names. -/
def all : List Tool :=
  [addGroups, addLinks, addNodes, clearDesign, deleteElements, exportBicep,
    exportTemplate, getDesign, getRules, listDesigns, loadDesign, saveDesign,
    setProperties]

/-- The name by which a tool is called. -/
def name : Tool → String
  | addGroups => "add_groups"
  | addLinks => "add_links"
  | addNodes => "add_nodes"
  | clearDesign => "clear_design"
  | deleteElements => "delete_elements"
  | exportBicep => "export_bicep"
  | exportTemplate => "export_template"
  | getDesign => "get_design"
  | getRules => "get_rules"
  | listDesigns => "list_designs"
  | loadDesign => "load_design"
  | saveDesign => "save_design"
  | setProperties => "set_properties"

/-- What a tool is for. -/
def description : Tool → String
  | addGroups =>
    "Add container groups (virtual networks, subnets, free-form areas) to the design"
  | addLinks =>
    "Link two elements. Links carry dependencies such as VM to network interface or "
      ++ "web app to plan; direction does not matter."
  | addNodes =>
    "Add resource nodes to the design, optionally inside a group"
  | clearDesign =>
    "Remove everything from the current design"
  | deleteElements =>
    "Delete nodes, groups or links by id. Deleting a group deletes everything inside "
      ++ "it."
  | exportBicep =>
    "Compile the design into an ARM template and decompile it to Bicep. Requires the "
      ++ "bicep CLI."
  | exportTemplate =>
    "Compile the design into an ARM deployment template (JSON). Fails with the "
      ++ "offending element id when a resource is incomplete."
  | getDesign =>
    "Get the current design as JSON: \x7bnodes: [\x7bid, kind, properties?, groupId?, "
      ++ "position?\x7d], groups: [\x7bid, kind, properties?, parentId?, position?\x7d], links: "
      ++ "[\x7bid, source, target, properties?\x7d]\x7d. Groups are listed parents first."
  | getRules =>
    "Get the topology modeling rules: which kinds are groups or nodes, required "
      ++ "links, and recognized properties"
  | listDesigns =>
    "List saved designs"
  | loadDesign =>
    "Replace the current design with a saved one. The current design is cleared "
      ++ "first, even if loading fails."
  | saveDesign =>
    "Save the current design under a name. An empty design is not saved."
  | setProperties =>
    "Set or delete properties on a node, group or link. A null value deletes the "
      ++ "property."

/-- The tool with a name. -/
def ofName? (name : String) : Option Tool :=
  all.find? (·.name == name)

end Tool

end CloudCanvas
