import Kojacoord.Net.ClientWrites
import Kojacoord.Net.ServerboundOrder
import Kojacoord.Net.VarInt

namespace Kojacoord
open Journal RoundTrip List

namespace PumpEnv
variable (env : PumpEnv)

end PumpEnv

namespace PumpEnv
variable {env : PumpEnv}

end PumpEnv

end Kojacoord
