import PropertyGraph.Bus
import PropertyGraph.Fact
import PropertyGraph.Graph.Change
import PropertyGraph.SoftLink

/-!
# Commands and listeners

What can be asked of a session: *questions*, which change nothing, and *commands*.  A listener
answers a call with a program, which gives commands one after another and may look at what came of
each before it goes on.  What a listener does may hang on how often it was called and on what it is
given.
-/

namespace PropertyGraph

/-- Something to find out about a session. -/
inductive Question where
  | node (id : Value)
  | nodes
  | hasNode (id : Value)
  | edge (id : Value)
  | edges
  | hasEdge (id : Value)
  | edgesOf (id : Value)
  | neighbors (id : Value)
  | predecessors (id : Value)
  | counts
  | softLinks (threshold : Value)
  | facts
  | statements
  | query (pattern : List (String × RawTerm))
  | schema
  /-- The adjacency of the graph that the document of this one gives. -/
  | reloaded
  | listenerCount (event : String)

/-- A node with its neighbours and its predecessors. -/
structure Surroundings where
  id : Value
  neighbors : List Value
  predecessors : List Value

/-- What comes of a command or a question. -/
inductive Outcome where
  | nothing
  | flag (b : Bool)
  | count (n : Nat)
  | counts (nodes edges : Nat)
  | node (n : Option Node)
  | nodes (ns : List Node)
  | edge (e : Option Edge)
  | edges (es : List Edge)
  | values (vs : List Value)
  | text (ps : List Text.Point)
  | links (ls : List SoftLink)
  | facts (fs : List Fact)
  | solutions (bs : List Bindings)
  | schema (s : Option Schema)
  | surroundings (ss : List Surroundings)
  | subscribed (s : Subscription)

mutual

/-- Something to do. -/
inductive Command where
  | ask (q : Question)
  | addNode (node : Value)
  | createNode (type data : Value)
  | updateNode (id changes : Value)
  | deleteNode (id : Value)
  | addEdge (edge : Value)
  | createEdge (type source target data : Value)
  | updateEdge (id changes : Value)
  | deleteEdge (id : Value)
  /-- Deletes the edge at a place among the edges, by the very identifier that it holds. -/
  | deleteHeld (place : Nat)
  | addNodes (nodes : Value)
  | addEdges (edges : Value)
  | load (document : Value)
  | clear
  | subscribe (event : String) (listener : Listener)
  /-- Ends the latest subscription of a listener of this name. -/
  | unsubscribeNamed (name : String)
  | unsubscribe (event : String) (token : Int)
  | emit (event : String) (args : List Value)
  | clearListeners

/-- What a listener does when it is called. -/
inductive Program where
  | done
  | fail (f : Failure)
  /-- Gives a command, and goes on with what comes of it; a failure may be left to whoever called
  the listener. -/
  | perform (c : Command) (escapes : Bool) (next : Result Outcome → Program)

/-- Somebody who is called when something happens. -/
inductive Listener where
  | mk (name : String) (respond : Nat → List Payload → Program)

end

namespace Listener

def name : Listener → String
  | .mk name _ => name

/-- What the listener does at its call of this number, with what it is given. -/
def respond : Listener → Nat → List Payload → Program
  | .mk _ respond => respond

end Listener

namespace Program

/-- One step of a listener that does always the same. -/
inductive Step where
  | give (c : Command) (escapes : Bool)
  | fail (f : Failure)

/-- Takes steps in order, whatever comes of them. -/
def ofSteps : List Step → Program
  | [] => .done
  | .give c escapes :: rest => .perform c escapes fun _ => ofSteps rest
  | .fail f :: _ => .fail f

end Program

/-- A listener that takes the same steps at each of its first calls, and later does nothing. -/
def Listener.ofSteps (name : String) (times : Nat) (steps : List Program.Step) : Listener :=
  .mk name fun call _ => if call < times then Program.ofSteps steps else .done

end PropertyGraph
