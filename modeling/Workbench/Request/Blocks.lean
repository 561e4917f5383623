/-
# Requests for blocks

A block is created together with its entry in a tab. Either both are stored or neither
is, and without the tab there is no block.
-/

import Workbench.Request.Basic

namespace Workbench

/-- A block that was created to show something, and how it is to be presented. -/
structure CreatedBlock where
  block : Block
  magnified : Bool

namespace Request

/-- Create a block at the end of a tab. -/
def createBlock (tabId : String) (definition : BlockDefinition) : Request Block := do
  let oid ← freshOid
  let (block, _tab) ← call "creating block in tab" <|
    .createAttached .block .tab (Block.ofDefinition oid definition) tabId
      fun tab block => Tab.addBlock tab (Block.oid block)
  return block

/-- Create a block that shows a target. If the target cannot be shown, nothing else is
tried. -/
def createViewBlock (surroundings : Surroundings) (tabId target : String)
    (options : ViewOptions) : Request CreatedBlock := do
  match BlockRequest.ofViewTarget surroundings target options with
  | .error cause => throw (.invalidTarget cause)
  | .ok request =>
      let block ← createBlock tabId request.definition
      return ⟨block, request.magnified⟩

end Request

end Workbench
