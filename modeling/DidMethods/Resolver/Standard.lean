import DidMethods.IonMethod.Resolve
import DidMethods.KeyMethod.Resolve
import DidMethods.Resolver.Basic

/-!
# The resolver for all methods

The key method and the ion method as a resolver sees them, and the resolver that knows both.
-/

namespace DidMethods

/-- The key method, which answers at once. -/
def KeyMethod.didMethod {ω : Type} (options : KeyOptions) : DidMethod ω where
  name := KeyMethod.name
  resolve did _ := return { result := KeyMethod.resolve options did }

/-- The ion method, which asks a gateway. -/
def IonMethod.didMethod {ω : Type} [Online ω] (m : IonMethod) : DidMethod ω where
  name := IonMethod.name
  resolve did options := Online.use (m.resolve options.gateway did)

/-- The resolver for both methods. The environment can name the gateway of the ion method. -/
def Resolver.standard {ω : Type} [Online ω] (gateway? : Option String) : Resolver ω where
  methods := [KeyMethod.didMethod {}, (IonMethod.ofEnvironment gateway?).didMethod]

end DidMethods
