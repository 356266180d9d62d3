import Figures.Template.Basic

/-!
# Galleries

* `Gallery`                a collection of templates by id; of two with one id the later stays
* `Gallery.all`            the templates by ascending id
* `Gallery.byCategory`     those of one category
* `Gallery.categories`     the categories that occur, ascending
-/

namespace Figures

structure Gallery where
  templates : Dict Template

namespace Gallery

def empty : Gallery := ⟨.empty⟩

instance : EmptyCollection Gallery := ⟨empty⟩

/-- the gallery with one more template; it takes the place of one with its id -/
def register (g : Gallery) (t : Template) : Gallery := ⟨g.templates.insert t.id t⟩

def ofList (ts : List Template) : Gallery := ts.foldl register empty

def get? (g : Gallery) (id : String) : Option Template := g.templates.get? id

def contains (g : Gallery) (id : String) : Bool := g.templates.contains id

def all (g : Gallery) : List Template := g.templates.values

def ids (g : Gallery) : List String := g.templates.keys

def size (g : Gallery) : Nat := g.templates.size

def isEmpty (g : Gallery) : Bool := g.templates.isEmpty

def byCategory (g : Gallery) (category : String) : List Template :=
  g.all.filter fun t => t.category == category

/-- the categories that occur, each once, ascending -/
def categories (g : Gallery) : List String :=
  (g.all.map Template.category).mergeSort.eraseReps

end Gallery

end Figures
