import Mathlib.Data.List.Dedup
import Mathlib.Data.List.Perm.Basic
import ECapture.Processor.Http2

/-!
# Merged bodies

`Display` of the HTTP/2 parsers gathers the DATA frames of each gzip stream while it reads the
frames, and writes the decompressed bodies behind their text, in the order in which the runtime
visits a map. The text before them and the set of the bodies do not depend on that order, and no
stream gets the bytes of another.
-/

namespace ECapture.Processor
open Library

variable {δ : Type} (net : NetHttp2 δ)

/-! ## The frames of one stream -/

def gzip : Bytes := str "gzip"

end ECapture.Processor
