import TorrentFlow.Alert
import TorrentFlow.OrderedSet

/-!
# Filters and requests

A subscriber asks for alerts of some kinds, or of every kind, and about one torrent, or about
anything. Its request also names the categories that the engine has to emit for it: the ones its
kinds are filed under, and any others it wants enabled.
-/

namespace TorrentFlow

structure Filter where
  /-- Each kind once, in the order of kinds; no kinds means every kind. -/
  kinds : OrderedSet AlertKind := {}
  /-- No handle means every alert, those about no torrent included. -/
  handle : Option Handle := none
deriving DecidableEq

namespace Filter

def ofKinds (kinds : List AlertKind) (handle : Option Handle) : Filter :=
  { kinds := .ofList kinds, handle }

def accepts (f : Filter) (a : Alert) : Bool :=
  (f.kinds.isEmpty || f.kinds.contains a.kind) &&
    match f.handle with
    | none => true
    | some h => a.handle? == some h

end Filter

structure Request where
  kinds : List AlertKind := []
  handle : Option Handle := none
  mask : Category := .none
  raiseIfRemoved : Bool := false
deriving DecidableEq

namespace Request

def withMask (r : Request) (mask : Category) : Request := { r with mask := r.mask ||| mask }

/-- The categories that the engine must emit for the subscriber to see its kinds. -/
def requiredMask (r : Request) : Category :=
  r.kinds.foldl (fun mask kind => mask ||| kind.category) r.mask

def filter (r : Request) : Filter := .ofKinds r.kinds r.handle

end Request

end TorrentFlow
