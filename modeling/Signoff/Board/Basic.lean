import Signoff.Calendar.Moment
import Signoff.Store.Table
import Signoff.Value.Basic

/-! # Workspaces and boards

A workspace has members with roles, and boards. A board has typed columns and holds items. Its workflow
is kept here as well, at most one for each board.
-/

namespace Signoff

/-- A workspace. -/
structure Workspace where
  id : Int
  name : String
  createdAt : Moment

/-- The role of a user in a workspace. -/
structure Member where
  id : Int
  workspaceId : Int
  user : String
  role : String

/-- A board of a workspace. -/
structure Board where
  id : Int
  workspaceId : Int
  name : String
  createdAt : Moment

/-- A column of a board. Columns are shown by position. -/
structure Column where
  id : Int
  boardId : Int
  name : String
  type : String
  position : Int

instance : Row Workspace := ⟨Workspace.id⟩
instance : Row Member := ⟨Member.id⟩
instance : Row Board := ⟨Board.id⟩
instance : Row Column := ⟨Column.id⟩

/-- A moment as a text. -/
def Moment.toValue (m : Moment) : Value := .text m.iso

/-- A moment as a text, or null. -/
def Value.ofMoment? (m : Option Moment) : Value := (m.map Moment.toValue).getD .null

/-- The workspace as an object. -/
def Workspace.toValue (w : Workspace) : Value :=
  .object [("id", .int w.id), ("name", .text w.name), ("created_at", w.createdAt.toValue)]

/-- The membership as an object. -/
def Member.toValue (m : Member) : Value :=
  .object [("id", .int m.id), ("workspace_id", .int m.workspaceId), ("user_id", .text m.user),
    ("role", .text m.role)]

/-- The column as an object. -/
def Column.toValue (c : Column) : Value :=
  .object [("id", .int c.id), ("board_id", .int c.boardId), ("name", .text c.name),
    ("type", .text c.type), ("position", .int c.position)]

/-- The board with its columns as an object. -/
def Board.toValue (b : Board) (columns : List Column) : Value :=
  .object [("id", .int b.id), ("workspace_id", .int b.workspaceId), ("name", .text b.name),
    ("settings", .object []), ("columns", .list (columns.map Column.toValue))]

/-- The stored workflow of a board. -/
structure StoredWorkflow where
  id : Int
  boardId : Int
  name : String
  description : Option String
  levels : Value
  rules : Value
  updatedBy : Option String
  updatedAt : Moment

instance : Row StoredWorkflow := ⟨StoredWorkflow.id⟩

/-- The stored workflow as an object. -/
def StoredWorkflow.toValue (w : StoredWorkflow) : Value :=
  .object [("id", .int w.id), ("board_id", .int w.boardId), ("name", .text w.name),
    ("description", .ofText? w.description), ("levels", w.levels.orElse (.list [])),
    ("rules", w.rules.orElse (.list [])), ("updated_by", .ofText? w.updatedBy),
    ("updated_at", w.updatedAt.toValue)]

end Signoff
