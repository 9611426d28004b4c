import BeastRouter.Base.Dispatcher.Fallback
import BeastRouter.Base.Dispatcher.NotFound

namespace BeastRouter

namespace IterationOrder
variable {Rq U Sm W : Type}

end IterationOrder

namespace Dispatcher
variable {Rq U Sm W : Type} (http : Http Rq Sm W) (order : ArgumentOrder)
  (iteration : IterationOrder Rq U Sm W)

open Router (sampleRoute)

end Dispatcher
end BeastRouter
