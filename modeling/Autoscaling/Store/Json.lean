import Autoscaling.Store.Hub
import Autoscaling.View.Json

/-!
# Changes in JSON

The written form of what a watch delivers.
-/

namespace Autoscaling

/-- The written form of a change: what happened, and the view. -/
def Change.toJson (c : Change) : Json :=
  .obj [("kind", .str c.kind.text), ("object", c.view.toJson)]

end Autoscaling
